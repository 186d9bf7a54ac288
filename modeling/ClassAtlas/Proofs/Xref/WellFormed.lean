import ClassAtlas.Proofs.Descriptor
import ClassAtlas.Proofs.Xref.Resolution

/-! Which constants can be spelled.

A constant is well formed when each of its references leads to a constant of the kind that it
needs, well formed in its turn, and each text it uses as a type is a descriptor. The kinds form
tiers: a method handle needs a member, a member a class and a typed name, these need texts, and a
text needs nothing. So the definitions below end without a bound on the depth, and so does spelling:
it reads at most seven constants of a pool, whatever refers to what (`resolve_ends`). -/
namespace ClassAtlas

/-- The text is the descriptor of a field type. -/
def IsFieldDescriptor (text : String) : Prop := ∃ t : FieldType, t.IsSpellable ∧ text.toList = t.descriptor

/-- The text is the descriptor of a method type. -/
def IsMethodDescriptor (text : String) : Prop := ∃ t : MethodType, t.IsSpellable ∧ text.toList = t.descriptor

/-- A name that starts with a bracket is the descriptor of an array. -/
def IsClassName (text : String) : Prop := text.toList.head? = some '[' → IsFieldDescriptor text

/-- A type that starts with a parenthesis is a method's; any other is a field's, or that of nothing. -/
def IsMemberType (text : String) : Prop :=
  (text.toList.head? = some '(' → IsMethodDescriptor text) ∧
    (text.toList.head? ≠ some '(' → text = "V" ∨ IsFieldDescriptor text)

namespace Spelling

theorem exists_type_iff {short : Bool} {text : String} :
    (∃ s, type short text = .ok s) ↔ text = "V" ∨ IsFieldDescriptor text := by
  unfold type
  split
  · rename_i hvoid
    exact ⟨fun _ => .inl hvoid, fun _ => ⟨_, rfl⟩⟩
  · rename_i hvoid
    simp only [map_eq_ok, FieldType.parse_eq_ok, hvoid, false_or, IsFieldDescriptor]
    constructor
    · rintro ⟨_, t, ⟨htext, ht⟩, -⟩
      exact ⟨t, ht, htext⟩
    · rintro ⟨t, ht, htext⟩
      exact ⟨_, t, ⟨htext, ht⟩, rfl⟩

theorem exists_signature_iff {short : Bool} {text : String} :
    (∃ s, signature short text = .ok s) ↔ IsMethodDescriptor text := by
  unfold signature
  simp only [bind_eq_ok, pure_eq_ok, MethodType.parse_eq_ok, IsMethodDescriptor]
  constructor
  · rintro ⟨_, t, ⟨htext, ht⟩, -⟩
    exact ⟨t, ht, htext⟩
  · rintro ⟨t, ht, htext⟩
    exact ⟨_, t, ⟨htext, ht⟩, rfl⟩

theorem exists_classConstant_iff {text : String} :
    (∃ s, classConstant text = .ok s) ↔ IsClassName text := by
  unfold classConstant IsClassName
  split
  · rename_i hhead
    have hvoid : text ≠ "V" := by
      rintro rfl
      cases hhead
    rw [exists_type_iff, hhead]
    simp [hvoid]
  · rename_i hhead
    refine ⟨fun _ hbracket => ?_, fun _ => ⟨_, rfl⟩⟩
    obtain ⟨rest, hrest⟩ := List.head?_eq_some_iff.1 hbracket
    exact absurd hrest (hhead rest)

end Spelling

/-! ### Well-formed constants -/

namespace ClassFile

namespace Pool

variable (p : Pool)

/-- A text with the property stands at the index. -/
def HasText (i : Index) (P : String → Prop) : Prop := ∃ text, p.get? i = some (.utf8 text) ∧ P text

/-- A well-formed class stands at the index. -/
def HasClass (i : Index) : Prop := ∃ name, p.get? i = some (.classRef name) ∧ p.HasText name IsClassName

/-- A well-formed typed name stands at the index. -/
def HasTypedName (i : Index) : Prop :=
  ∃ name descriptor, p.get? i = some (.nameAndType name descriptor) ∧
    p.HasText name (fun _ => True) ∧ p.HasText descriptor IsMemberType

/-- A well-formed reference to a field or a method stands at the index. -/
def HasMember (i : Index) : Prop :=
  ∃ owner member, (p.get? i = some (.fieldref owner member) ∨ p.get? i = some (.methodref owner member) ∨
    p.get? i = some (.interfaceMethodref owner member)) ∧ p.HasClass owner ∧ p.HasTypedName member

end Pool

/-- The constant refers to what it needs, and all of that is well formed. -/
def Constant.IsWellFormed (p : Pool) : Constant → Prop
  | utf8 _ | integer _ | float _ | long _ | double _ => True
  | string value => p.HasText value fun _ => True
  | classRef name => p.HasText name IsClassName
  | nameAndType name descriptor => p.HasText name (fun _ => True) ∧ p.HasText descriptor IsMemberType
  | fieldref owner member | methodref owner member | interfaceMethodref owner member =>
    p.HasClass owner ∧ p.HasTypedName member
  | methodType descriptor => p.HasText descriptor IsMethodDescriptor
  | methodHandle _ target => p.HasMember target
  | dynamic _ member | invokeDynamic _ member => p.HasTypedName member
  | module name | package name => p.HasText name fun _ => True

end ClassFile

namespace Xref.Resolver
open ClassFile

/-! ### Computations that end -/

/-- Whatever is marked, the computation marks the same indices, no more than `n`, and has the same
result, which is a success exactly under the condition, and else blames a constant. -/
def Ends (n : Nat) (condition : Prop) (r : Resolver α) : Prop :=
  ∃ (result : Except Error α) (touched : List Index), touched.length ≤ n ∧
    (∀ m, r.run m = (result, m.markAll touched)) ∧ ((∃ a, result = .ok a) ↔ condition) ∧
    ∀ e, result = .error e → e.kind = .malformedConstant

namespace Ends

variable {α β : Type} {n k : Nat} {C D : Prop} {pool : Pool} {r : Resolver α} {f : α → Resolver β}

theorem congr (h : Ends n C r) (hCD : C ↔ D) (hnk : n ≤ k) : Ends k D r := by
  obtain ⟨result, touched, hlen, hrun, hok, hkind⟩ := h
  exact ⟨result, touched, Nat.le_trans hlen hnk, hrun, hok.trans hCD, hkind⟩

theorem pure (a : α) : Ends 0 True (Pure.pure a : Resolver α) :=
  ⟨.ok a, [], Nat.le_refl 0, fun _ => rfl, by simp, nofun⟩

theorem fail {i : Index} {fault : ConstantFault} (h : ¬ C) : Ends n C (Resolver.fail i fault : Resolver α) :=
  ⟨.error (fault.at i), [], Nat.zero_le n, fun _ => rfl, by simp [h], by
    rintro _ ⟨⟩
    exact Error.kind_saying ..⟩

theorem orBlame (i : Index) (fault : Descriptor.Fault → ConstantFault) (x : Except Descriptor.Fault α) :
    Ends 0 (∃ a, x = .ok a) (Resolver.orBlame i fault x) := by
  cases x with
  | error e => exact fail (by simp)
  | ok a => exact (pure a).congr (by simp) (Nat.le_refl 0)

/-- What follows may hang on the value, but whether it succeeds may not. -/
theorem bind (hr : Ends n C r) (hf : ∀ a, Ends k D (f a)) : Ends (n + k) (C ∧ D) (r >>= f) := by
  obtain ⟨result, touched, hlen, hrun, hok, hkind⟩ := hr
  cases result with
  | error e =>
    refine ⟨.error e, touched, by omega, fun m => ?_, ?_, fun e' he' => ?_⟩
    · rw [run_bind, hrun]
    · have hC : ¬ C := fun hC => nomatch hok.2 hC
      simp [hC]
    · exact hkind e' (congrArg Except.error (Except.error.inj he'))
  | ok a =>
    obtain ⟨result', touched', hlen', hrun', hok', hkind'⟩ := hf a
    refine ⟨result', touched ++ touched', ?_, fun m => ?_, ?_, hkind'⟩
    · rw [List.length_append]
      omega
    · rw [run_bind, hrun]
      show (f a).run (m.markAll touched) = _
      rw [hrun', Marks.markAll, Marks.markAll, Marks.markAll, List.foldl_append]
    · have hC : C := hok.1 ⟨a, rfl⟩
      simp [hok', hC]

/-- A last step that cannot fail and marks nothing. -/
theorem finish (hr : Ends n C r) {f : α → β} : Ends n C (r >>= fun a => Pure.pure (f a)) :=
  (hr.bind fun a => pure (f a)).congr (by simp) (Nat.le_refl n)

theorem mark (hr : Ends n C r) (i : Index) : Ends (n + 1) C (Resolver.mark i >>= fun _ => r) := by
  obtain ⟨result, touched, hlen, hrun, hok, hkind⟩ := hr
  exact ⟨result, i :: touched, Nat.succ_le_succ hlen, fun m => hrun (m.mark i), hok, hkind⟩

/-- To look a constant up fails where there is none. -/
theorem entry_bind {i : Index} {f : Constant → Resolver α} (hnone : pool.get? i = none → ¬ C)
    (hsome : ∀ c, pool.get? i = some c → Ends n C (f c)) : Ends n C (entry pool i >>= f) := by
  cases hc : lookUp pool i with
  | ok c =>
    rw [entry_of_lookUp hc, pure_bind]
    exact hsome c (get?_of_lookUp hc)
  | error fault =>
    have habsent : pool.get? i = none := by
      cases hget : pool.get? i with
      | none => rfl
      | some c => rw [lookUp_of_get? hget] at hc; cases hc
    rw [entry_of_fault hc]
    exact fail (hnone habsent)

/-- To read a text and go on with it. -/
theorem utf8_bind {i : Index} {P : String → Prop} {f : String → Resolver α} (h : ∀ text, Ends n (P text) (f text)) :
    Ends (n + 1) (pool.HasText i P) (utf8 pool i >>= f) := by
  unfold utf8
  rw [bind_assoc]
  refine entry_bind (fun hnone => by simp [Pool.HasText, hnone]) fun c hc => ?_
  cases c with
  | utf8 text =>
    simp only [bind_assoc, pure_bind]
    exact ((h text).mark i).congr (by simp [Pool.HasText, hc]) (Nat.le_refl _)
  | _ => exact fail (by simp [Pool.HasText, hc])

end Ends

/-! ### The parts that spell a constant -/

variable {pool : Pool}

theorem utf8_ends (i : Index) : Ends 1 (pool.HasText i fun _ => True) (utf8 pool i) := by
  rw [← bind_pure (utf8 pool i)]
  exact .utf8_bind fun text => .pure text

theorem className_ends (name : Index) : Ends 1 (pool.HasText name IsClassName) (className pool name) :=
  .utf8_bind fun _ => (Ends.orBlame ..).congr Spelling.exists_classConstant_iff (Nat.le_refl 0)

theorem classRef_ends (i : Index) : Ends 2 (pool.HasClass i) (classRef pool i) := by
  refine .entry_bind (fun hnone => by simp [Pool.HasClass, hnone]) fun c hc => ?_
  cases c with
  | classRef name => exact ((className_ends name).mark i).congr (by simp [Pool.HasClass, hc]) (Nat.le_refl 2)
  | _ => exact .fail (by simp [Pool.HasClass, hc])

/-- The spelling of a member's type is picked by its first character. -/
theorem memberType_ends {descriptor : Index} {text name : String} :
    Ends 0 (IsMemberType text) (match text.toList with
      | '(' :: _ => do
        let (result, parameters) ← orBlame descriptor .descriptor (Spelling.signature true text)
        return result ++ " " ++ name ++ "(" ++ ", ".intercalate parameters ++ ")"
      | _ => do
        let type ← orBlame descriptor .descriptor (Spelling.type true text)
        return type ++ " " ++ name) := by
  unfold IsMemberType
  split
  · rename_i hhead
    refine (Ends.orBlame ..).finish.congr ?_ (Nat.le_refl 0)
    rw [Spelling.exists_signature_iff, hhead]
    simp
  · rename_i hhead
    have hother : text.toList.head? ≠ some '(' := by
      intro hopen
      obtain ⟨rest, hrest⟩ := List.head?_eq_some_iff.1 hopen
      exact hhead rest hrest
    refine (Ends.orBlame ..).finish.congr ?_ (Nat.le_refl 0)
    rw [Spelling.exists_type_iff]
    simp [hother]

theorem typedName_ends (name descriptor : Index) :
    Ends 2 (pool.HasText name (fun _ => True) ∧ pool.HasText descriptor IsMemberType)
      (typedName pool name descriptor) :=
  (utf8_ends name).bind fun _ => .utf8_bind fun _ => memberType_ends

theorem nameAndType_ends (i : Index) : Ends 3 (pool.HasTypedName i) (nameAndType pool i) := by
  refine .entry_bind (fun hnone => by simp [Pool.HasTypedName, hnone]) fun c hc => ?_
  cases c with
  | nameAndType name descriptor =>
    exact ((typedName_ends name descriptor).mark i).congr (by simp [Pool.HasTypedName, hc]) (Nat.le_refl 3)
  | _ => exact .fail (by simp [Pool.HasTypedName, hc])

theorem memberOf_ends (owner member : Index) :
    Ends 5 (pool.HasClass owner ∧ pool.HasTypedName member) (memberOf pool owner member) :=
  (classRef_ends owner).bind fun _ => (nameAndType_ends member).finish

theorem methodType_ends (descriptor : Index) :
    Ends 1 (pool.HasText descriptor IsMethodDescriptor) (methodType pool descriptor) :=
  .utf8_bind fun _ => (Ends.orBlame ..).finish.congr Spelling.exists_signature_iff (Nat.le_refl 0)

theorem methodHandle_ends (action : UInt8) (target : Index) :
    Ends 6 (pool.HasMember target) (methodHandle pool action target) := by
  rw [methodHandle_eq_bind]
  refine .entry_bind (fun hnone => by simp [Pool.HasMember, hnone]) fun c hc => ?_
  split
  · rename_i hmember
    have hvisit : Ends 6 (pool.HasMember target) (mark target >>= fun _ => constant pool c) := by
      cases c with
      | fieldref owner member | methodref owner member | interfaceMethodref owner member =>
        rw [constant]
        exact ((memberOf_ends owner member).mark target).congr (by simp [Pool.HasMember, hc]) (Nat.le_refl 6)
      | _ => cases hmember
    exact hvisit.finish
  · rename_i hother
    refine .fail ?_
    rintro ⟨owner, member, htarget, -⟩
    rw [hc] at htarget
    rcases htarget with htarget | htarget | htarget <;> exact hother (by rw [Option.some.inj htarget]; rfl)

theorem constant_ends (c : Constant) : Ends 6 (c.IsWellFormed pool) (constant pool c) := by
  cases c <;> rw [constant]
  case utf8 | integer | long | float | double => exact (Ends.pure _).congr Iff.rfl (by omega)
  case string value => exact (utf8_ends value).congr Iff.rfl (by omega)
  case classRef name => exact (className_ends name).congr Iff.rfl (by omega)
  case nameAndType name descriptor => exact (typedName_ends name descriptor).congr Iff.rfl (by omega)
  case fieldref owner member => exact (memberOf_ends owner member).congr Iff.rfl (by omega)
  case methodref owner member => exact (memberOf_ends owner member).congr Iff.rfl (by omega)
  case interfaceMethodref owner member => exact (memberOf_ends owner member).congr Iff.rfl (by omega)
  case methodType descriptor => exact (methodType_ends descriptor).congr Iff.rfl (by omega)
  case methodHandle action target => exact methodHandle_ends action target
  case dynamic _ member => exact (nameAndType_ends member).congr Iff.rfl (by omega)
  case invokeDynamic _ member => exact (nameAndType_ends member).congr Iff.rfl (by omega)
  case module name => exact (utf8_ends name).congr Iff.rfl (by omega)
  case package name => exact (utf8_ends name).finish.congr Iff.rfl (by omega)

theorem resolve_ends_of_pool (pool : Pool) (i : Index) :
    Ends 7 (∃ c, pool.get? i = some c ∧ c.IsWellFormed pool) (resolve pool i) := by
  rw [resolve_eq_bind]
  refine .entry_bind (fun hnone => by simp [hnone]) fun c hc => ?_
  exact ((constant_ends c).mark i).congr (by simp [hc]) (Nat.le_refl 7)

/-- A constant that cannot be spelled is a malformed one. -/
theorem kind_of_resolve {pool : Pool} {i : Index} {m m' : Marks} {e : Error}
    (h : (resolve pool i).run m = (.error e, m')) : e.kind = .malformedConstant := by
  obtain ⟨result, touched, -, hrun, -, hkind⟩ := resolve_ends_of_pool pool i
  rw [hrun] at h
  exact hkind e (congrArg Prod.fst h)

/-- **Spelling a constant always ends, and succeeds exactly on the well-formed ones.** It reads at
most seven constants, whatever the pool. -/
theorem resolve_ends (pool : Pool) (i : Index) :
    ∃ (result : Except Error String) (touched : List Index), touched.length ≤ 7 ∧
      (∀ m, (resolve pool i).run m = (result, m.markAll touched)) ∧
      ((∃ text, result = .ok text) ↔
        1 ≤ i.toNat ∧ i.toNat < pool.count ∧ ∃ c, pool.get? i = some c ∧ c.IsWellFormed pool) ∧
      ∀ e, result = .error e → e.kind = .malformedConstant := by
  obtain ⟨result, touched, hlen, hrun, hok, hkind⟩ := resolve_ends_of_pool pool i
  refine ⟨result, touched, hlen, hrun, hok.trans ⟨fun hwell => ?_, fun hwell => hwell.2.2⟩, hkind⟩
  obtain ⟨c, hc, hform⟩ := hwell
  have hzero : i ≠ 0 := by
    rintro rfl
    cases hc
  have hpos : i.toNat ≠ 0 := fun h => hzero (UInt16.toNat_inj.1 h)
  exact ⟨Nat.one_le_iff_ne_zero.2 hpos, Pool.lt_count_of_get? hc, c, hc, hform⟩

-- A method handle that refers to itself: its own kind is not the one it needs.
example : (resolve ⟨#[some (.methodHandle 1 1)]⟩ 1).run (.none 2) =
    (.error (ConstantFault.at 1 (.unexpected .memberRef .methodHandle)), (Marks.none 2).mark 1) := by
  decide +kernel

end Xref.Resolver
end ClassAtlas
