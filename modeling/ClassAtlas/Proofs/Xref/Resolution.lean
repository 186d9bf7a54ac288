import ClassAtlas.Proofs.Xref.Marking
import ClassAtlas.Xref.Resolve
import Mathlib.Logic.Relation

/-! Spelling a constant, and what it marks. The text of a constant does not hang on what is marked
already. On the way to it only those constants are marked to which it refers, directly or through
others, and when it succeeds all of them are (`resolve_marks_reached`). A reference is marked after
the kind of its target has been checked, and no check lets a literal through.

The parts that spell a constant call each other, but every call follows a reference. So there is
one statement for each of them, that it follows the references it is given (`Follows`). -/
namespace ClassAtlas.ClassFile

/-- The indices that a constant refers to, in the order in which they are read. -/
def Constant.references : Constant → List Index
  | utf8 _ | integer _ | float _ | long _ | double _ => []
  | string value => [value]
  | classRef name | module name | package name => [name]
  | fieldref owner member | methodref owner member | interfaceMethodref owner member => [owner, member]
  | nameAndType name descriptor => [name, descriptor]
  | methodHandle _ target => [target]
  | methodType descriptor => [descriptor]
  | dynamic _ member | invokeDynamic _ member => [member]

namespace Pool

variable {p : Pool} {i j k : Index}

/-- The constant at the first index refers to the second. -/
def Refers (p : Pool) (i j : Index) : Prop := ∃ c, p.get? i = some c ∧ j ∈ c.references

/-- The second index is the first, or it is referred to from there in one or more steps. -/
def Reaches (p : Pool) : Index → Index → Prop := Relation.ReflTransGen p.Refers

theorem Reaches.refl (p : Pool) (i : Index) : p.Reaches i i := Relation.ReflTransGen.refl

theorem Reaches.trans (hij : p.Reaches i j) (hjk : p.Reaches j k) : p.Reaches i k :=
  Relation.ReflTransGen.trans hij hjk

/-- What is reached from a constant is the constant itself or reached from one of its references. -/
theorem reaches_iff {c : Constant} (hc : p.get? i = some c) :
    p.Reaches i j ↔ j = i ∨ ∃ k ∈ c.references, p.Reaches k j := by
  unfold Reaches
  rw [Relation.ReflTransGen.cases_head_iff]
  refine ⟨fun h => ?_, fun h => ?_⟩
  · rcases h with rfl | ⟨k, ⟨c', hc', hk⟩, hkj⟩
    · exact .inl rfl
    · have hsame : c = c' := Option.some.inj (hc.symm.trans hc')
      exact .inr ⟨k, hsame ▸ hk, hkj⟩
  · rcases h with rfl | ⟨k, hk, hkj⟩
    · exact .inl rfl
    · exact .inr ⟨k, ⟨c, hc, hk⟩, hkj⟩

end Pool
end ClassAtlas.ClassFile

namespace ClassAtlas.Xref
open ClassFile

namespace Resolver

variable {α β : Type} {P Q : Index → Prop} {pool : Pool}

theorem run_bind (r : Resolver α) (f : α → Resolver β) (m : Marks) :
    (r >>= f).run m = match r.run m with
      | (.ok a, m') => (f a).run m'
      | (.error e, m') => (.error e, m') := by
  show (match r.run m with | (a, m') => ExceptT.bindCont f a m') = _
  rcases r.run m with ⟨_ | _, m'⟩ <;> rfl

theorem lookUp_of_get? {i : Index} {c : Constant} (h : pool.get? i = some c) : lookUp pool i = .ok c := by
  have hrange : ¬ (i = 0 ∨ pool.count ≤ i.toNat) := by
    rintro (rfl | hout)
    · cases h
    · exact Nat.not_lt.2 hout (Pool.lt_count_of_get? h)
  unfold lookUp
  rw [if_neg hrange, h]

theorem get?_of_lookUp {i : Index} {c : Constant} (h : lookUp pool i = .ok c) : pool.get? i = some c := by
  unfold lookUp at h
  split at h
  · cases h
  · split at h
    · rename_i hc
      rw [hc, Except.ok.inj h]
    · cases h

theorem entry_of_lookUp {i : Index} {c : Constant} (h : lookUp pool i = .ok c) : entry pool i = pure c := by
  rw [entry, h]

theorem entry_of_fault {i : Index} {fault : ConstantFault} (h : lookUp pool i = .error fault) :
    entry pool i = fail i fault := by
  rw [entry, h]

theorem entry_eq_pure {i : Index} {c : Constant} (h : pool.get? i = some c) : entry pool i = pure c :=
  entry_of_lookUp (lookUp_of_get? h)

/-! ### One step of the recursion -/

/-- To resolve an index is to look it up, to mark it and to spell its constant. -/
theorem resolve_eq_bind (i : Index) :
    resolve pool i = entry pool i >>= fun c => mark i >>= fun _ => constant pool c := by
  rw [resolve]
  split
  · rename_i fault h
    rw [entry_of_fault h]
    rfl
  · rename_i c h
    rw [entry_of_lookUp h, pure_bind]

theorem resolve_eq {i : Index} {c : Constant} (hc : pool.get? i = some c) :
    resolve pool i = mark i >>= fun _ => constant pool c := by
  rw [resolve_eq_bind, entry_eq_pure hc, pure_bind]

/-- The target of a method handle is looked up, and resolved when it is a member. -/
theorem methodHandle_eq_bind (action : UInt8) (target : Index) :
    methodHandle pool action target = entry pool target >>= fun c =>
      if c.kind.isMember then
        (mark target >>= fun _ => constant pool c) >>= fun text => pure (handleAction action ++ " " ++ text)
      else fail target (.unexpected .memberRef c.kind) := by
  rw [methodHandle]
  split
  · rename_i fault h
    rw [entry_of_fault h]
    rfl
  · rename_i c h
    rw [entry_of_lookUp h, pure_bind, resolve_eq (get?_of_lookUp h)]
    rfl

end Resolver

/-- The text of the constant at an index, whatever is marked. -/
def Spelled (pool : Pool) (i : Index) (text : String) : Prop :=
  ∀ m, ((Resolver.resolve pool i).run m).1 = .ok text

/-- An index with a text has a constant. -/
theorem Spelled.present {pool : Pool} {i : Index} {text : String} (h : Spelled pool i text) :
    ∃ c, pool.get? i = some c := by
  have htext := h (.none 0)
  rw [Resolver.resolve_eq_bind, Resolver.entry] at htext
  cases hc : Resolver.lookUp pool i with
  | ok c => exact ⟨c, Resolver.get?_of_lookUp hc⟩
  | error fault =>
    rw [hc] at htext
    cases htext

namespace Resolver

variable {α β : Type} {P Q : Index → Prop} {pool : Pool}

/-! ### Following references -/

/-- The computation follows the given references. Its result does not hang on the marks; it marks
only indices with the property that are reached from a reference; and when it succeeds, all that is
reached from a reference is marked and can be spelled. -/
def Follows (pool : Pool) (P : Index → Prop) (targets : List Index) (r : Resolver α) : Prop :=
  ∃ (result : Except Error α) (touched : List Index),
    (∀ m, r.run m = (result, m.markAll touched)) ∧
    (∀ j ∈ touched, P j ∧ ∃ i ∈ targets, pool.Reaches i j) ∧
    ∀ a, result = .ok a → ∀ i ∈ targets, ∀ j, pool.Reaches i j → j ∈ touched ∧ ∃ text, Spelled pool j text

namespace Follows

variable {targets others : List Index}

theorem pure (a : α) : Follows pool P [] (Pure.pure a : Resolver α) :=
  ⟨.ok a, [], fun _ => rfl, nofun, nofun⟩

theorem fail (i : Index) (fault : ConstantFault) : Follows pool P targets (Resolver.fail i fault : Resolver α) :=
  ⟨.error (fault.at i), [], fun _ => rfl, nofun, nofun⟩

theorem bind {r : Resolver α} {f : α → Resolver β} (hr : Follows pool P targets r)
    (hf : ∀ a, Follows pool P others (f a)) : Follows pool P (targets ++ others) (r >>= f) := by
  obtain ⟨result, touched, hrun, htouched, hall⟩ := hr
  have hfirst : ∀ j ∈ touched, P j ∧ ∃ i ∈ targets ++ others, pool.Reaches i j := by
    intro j hj
    obtain ⟨hP, i, hi, hij⟩ := htouched j hj
    exact ⟨hP, i, List.mem_append_left _ hi, hij⟩
  cases result with
  | error e =>
    refine ⟨.error e, touched, fun m => ?_, hfirst, nofun⟩
    rw [run_bind, hrun]
  | ok a =>
    obtain ⟨result', touched', hrun', htouched', hall'⟩ := hf a
    refine ⟨result', touched ++ touched', fun m => ?_, fun j hj => ?_, fun b hb i hi j hij => ?_⟩
    · rw [run_bind, hrun]
      show (f a).run (m.markAll touched) = _
      rw [hrun', Marks.markAll, Marks.markAll, Marks.markAll, List.foldl_append]
    · rcases List.mem_append.1 hj with hj | hj
      · exact hfirst j hj
      · obtain ⟨hP, i, hi, hij⟩ := htouched' j hj
        exact ⟨hP, i, List.mem_append_right _ hi, hij⟩
    · rcases List.mem_append.1 hi with hi | hi
      · exact ⟨List.mem_append_left _ (hall a rfl i hi j hij).1, (hall a rfl i hi j hij).2⟩
      · exact ⟨List.mem_append_right _ (hall' b hb i hi j hij).1, (hall' b hb i hi j hij).2⟩

/-- What comes after the last reference. -/
theorem finish {r : Resolver α} {f : α → Resolver β} (hr : Follows pool P targets r)
    (hf : ∀ a, Follows pool P [] (f a)) : Follows pool P targets (r >>= f) := by
  have h := hr.bind hf
  rwa [List.append_nil] at h

theorem orBlame (i : Index) (fault : Descriptor.Fault → ConstantFault) (x : Except Descriptor.Fault α) :
    Follows pool P [] (Resolver.orBlame i fault x) := by
  cases x with
  | error e => exact fail i (fault e)
  | ok a => exact pure a

theorem mono {r : Resolver α} (h : Follows pool P targets r) (hPQ : ∀ j, P j → Q j) : Follows pool Q targets r := by
  obtain ⟨result, touched, hrun, htouched, hall⟩ := h
  exact ⟨result, touched, hrun, fun j hj => ⟨hPQ j (htouched j hj).1, (htouched j hj).2⟩, hall⟩

/-- What is done with the constant at an index is done with the one the pool holds there. -/
theorem entry_bind {i : Index} {f : Constant → Resolver α}
    (h : ∀ c, pool.get? i = some c → Follows pool P targets (f c)) : Follows pool P targets (entry pool i >>= f) := by
  unfold entry
  cases hc : lookUp pool i with
  | ok c => exact h c (get?_of_lookUp hc)
  | error fault => exact fail i fault

/-- To mark an index and to spell its constant is to follow a reference there. -/
theorem visit {i : Index} {c : Constant} {r : Resolver String} (hc : pool.get? i = some c) (hi : P i)
    (hr : constant pool c = r) (h : Follows pool P c.references r) :
    Follows pool P [i] (Resolver.mark i >>= fun _ => r) := by
  subst hr
  obtain ⟨result, touched, hrun, htouched, hall⟩ := h
  have hvisit : ∀ m, (Resolver.mark i >>= fun _ => constant pool c).run m = (result, m.markAll (i :: touched)) :=
    fun m => hrun (m.mark i)
  refine ⟨result, i :: touched, hvisit, fun j hj => ?_, fun text htext k hk j hkj => ?_⟩
  · rcases List.mem_cons.1 hj with rfl | hj
    · exact ⟨hi, j, List.mem_singleton_self j, .refl pool j⟩
    · obtain ⟨hP, k, hk, hkj⟩ := htouched j hj
      exact ⟨hP, i, List.mem_singleton_self i, (Pool.reaches_iff hc).2 (.inr ⟨k, hk, hkj⟩)⟩
  · obtain rfl := List.mem_singleton.1 hk
    rcases (Pool.reaches_iff hc).1 hkj with rfl | ⟨n, hn, hnj⟩
    · refine ⟨List.mem_cons_self, text, fun m => ?_⟩
      rw [resolve_eq hc, hvisit, htext]
    · obtain ⟨hmem, hspelled⟩ := hall text htext n hn j hnj
      exact ⟨List.mem_cons_of_mem _ hmem, hspelled⟩

end Follows

/-! ### The parts that spell a constant -/

/-- An index at which no literal stands. -/
def Unliteral (pool : Pool) (i : Index) : Prop := ∀ k, pool.get? i = some k → k.isLiteral = false

theorem unliteral_of_get? {i : Index} {k : Constant} (h : pool.get? i = some k) (hk : k.isLiteral = false) :
    Unliteral pool i := by
  intro k' hk'
  obtain rfl := Option.some.inj (h.symm.trans hk')
  exact hk

theorem utf8_follows (i : Index) : Follows pool (Unliteral pool) [i] (utf8 pool i) := by
  refine .entry_bind fun c hc => ?_
  cases c with
  | utf8 value => exact .visit hc (unliteral_of_get? hc rfl) (by rw [constant]) (.pure value)
  | _ => exact .fail i _

theorem className_follows (name : Index) : Follows pool (Unliteral pool) [name] (className pool name) :=
  (utf8_follows name).finish fun _ => .orBlame ..

theorem classRef_follows (i : Index) : Follows pool (Unliteral pool) [i] (classRef pool i) := by
  refine .entry_bind fun c hc => ?_
  cases c with
  | classRef name => exact .visit hc (unliteral_of_get? hc rfl) (by rw [constant]) (className_follows name)
  | _ => exact .fail i _

theorem typedName_follows (name descriptor : Index) :
    Follows pool (Unliteral pool) [name, descriptor] (typedName pool name descriptor) := by
  refine (utf8_follows name).bind fun _ => (utf8_follows descriptor).finish fun text => ?_
  split
  · exact (Follows.orBlame ..).finish fun _ => .pure _
  · exact (Follows.orBlame ..).finish fun _ => .pure _

theorem nameAndType_follows (i : Index) : Follows pool (Unliteral pool) [i] (nameAndType pool i) := by
  refine .entry_bind fun c hc => ?_
  cases c with
  | nameAndType name descriptor =>
    exact .visit hc (unliteral_of_get? hc rfl) (by rw [constant]) (typedName_follows name descriptor)
  | _ => exact .fail i _

theorem memberOf_follows (owner member : Index) :
    Follows pool (Unliteral pool) [owner, member] (memberOf pool owner member) :=
  (classRef_follows owner).bind fun _ => (nameAndType_follows member).finish fun _ => .pure _

theorem methodType_follows (descriptor : Index) :
    Follows pool (Unliteral pool) [descriptor] (methodType pool descriptor) :=
  (utf8_follows descriptor).finish fun _ => (Follows.orBlame ..).finish fun _ => .pure _

/-- Only a method handle goes back to resolving, and that at a member. -/
theorem methodHandle_follows (action : UInt8) (target : Index) :
    Follows pool (Unliteral pool) [target] (methodHandle pool action target) := by
  rw [methodHandle_eq_bind]
  refine .entry_bind fun c hc => ?_
  split
  · rename_i hmember
    -- The three kinds of members are spelled alike.
    have hvisit : Follows pool (Unliteral pool) [target] (mark target >>= fun _ => constant pool c) := by
      cases c with
      | fieldref owner member | methodref owner member | interfaceMethodref owner member =>
        rw [constant]
        exact .visit hc (unliteral_of_get? hc rfl) (by rw [constant]) (memberOf_follows owner member)
      | _ => cases hmember
    exact hvisit.finish fun _ => .pure _
  · exact .fail target _

theorem constant_follows (c : Constant) : Follows pool (Unliteral pool) c.references (constant pool c) := by
  cases c <;> simp only [constant]
  case utf8 | integer | long | float | double => exact .pure _
  case string value => exact utf8_follows value
  case classRef name => exact className_follows name
  case nameAndType name descriptor => exact typedName_follows name descriptor
  case fieldref owner member => exact memberOf_follows owner member
  case methodref owner member => exact memberOf_follows owner member
  case interfaceMethodref owner member => exact memberOf_follows owner member
  case methodType descriptor => exact methodType_follows descriptor
  case methodHandle action target => exact methodHandle_follows action target
  case dynamic _ member => exact nameAndType_follows member
  case invokeDynamic _ member => exact nameAndType_follows member
  case module name => exact utf8_follows name
  case package name => exact (utf8_follows name).finish fun _ => .pure _

/-- Spelling the constant at an index follows the index, and marks beside it no literal. -/
theorem resolve_follows (pool : Pool) (i : Index) :
    Follows pool (fun j => j = i ∨ Unliteral pool j) [i] (resolve pool i) := by
  rw [resolve_eq_bind]
  refine .entry_bind fun c hc => ?_
  exact .visit hc (.inl rfl) rfl ((constant_follows c).mono fun _ => .inr)

/-! ### What is marked in the end -/

section Marked
variable {i : Index} {text : String} (m : Marks)

/-- One result, whatever is marked. -/
theorem resolve_result (pool : Pool) (i : Index) (m' : Marks) :
    ((resolve pool i).run m').1 = ((resolve pool i).run m).1 := by
  obtain ⟨result, touched, hrun, -⟩ := resolve_follows pool i
  rw [hrun, hrun]

theorem spelled_iff : Spelled pool i text ↔ ((resolve pool i).run m).1 = .ok text := by
  refine ⟨fun h => h m, fun h m' => ?_⟩
  rw [resolve_result m, h]

theorem size_resolve (pool : Pool) (i : Index) : ((resolve pool i).run m).2.size = m.size := by
  obtain ⟨result, touched, hrun, -⟩ := resolve_follows pool i
  rw [hrun, Marks.size_markAll]

/-- Marks are only added, and only on what is reached. -/
theorem resolve_grows (pool : Pool) (i j : Index) :
    (m.has j = true → ((resolve pool i).run m).2.has j = true) ∧
      (((resolve pool i).run m).2.has j = true → m.has j = true ∨ pool.Reaches i j) := by
  obtain ⟨result, touched, hrun, htouched, -⟩ := resolve_follows pool i
  rw [hrun, Marks.has_markAll]
  refine ⟨.inl, fun h => ?_⟩
  rcases h with hj | ⟨hj, -⟩
  · exact .inl hj
  · obtain ⟨-, k, hk, hkj⟩ := htouched j hj
    obtain rfl := List.mem_singleton.1 hk
    exact .inr hkj

/-- With a text, all that is reached is marked and can be spelled. -/
theorem resolve_of_spelled (h : Spelled pool i text) :
    ∃ touched, (∀ m, (resolve pool i).run m = (.ok text, m.markAll touched)) ∧
      ∀ j, pool.Reaches i j → j ∈ touched ∧ ∃ text, Spelled pool j text := by
  obtain ⟨result, touched, hrun, -, hall⟩ := resolve_follows pool i
  obtain rfl : result = .ok text := by
    rw [← h (.none 0), hrun]
  exact ⟨touched, hrun, hall text rfl i (List.mem_singleton_self i)⟩

theorem spelled_of_reaches {j : Index} (h : Spelled pool i text) (hij : pool.Reaches i j) :
    ∃ text, Spelled pool j text := by
  obtain ⟨touched, -, hall⟩ := resolve_of_spelled h
  exact (hall j hij).2

/-- A constant that is spelled reaches no literal but itself. -/
theorem eq_of_reaches_literal {j : Index} {k : Constant} (h : Spelled pool i text) (hij : pool.Reaches i j)
    (hk : pool.get? j = some k) (hliteral : k.isLiteral = true) : j = i := by
  obtain ⟨result, touched, hrun, htouched, hall⟩ := resolve_follows pool i
  obtain rfl : result = .ok text := by
    rw [← h (.none 0), hrun]
  obtain ⟨hmem, -⟩ := hall text rfl i (List.mem_singleton_self i) j hij
  refine (htouched j hmem).1.resolve_right fun hplain => ?_
  rw [hplain k hk] at hliteral
  cases hliteral

/-- A constant that is spelled is marked together with all that it reaches. -/
theorem has_resolve (hm : m.size = pool.count) (htext : Spelled pool i text) (j : Index) :
    ((resolve pool i).run m).2.has j = true ↔ m.has j = true ∨ pool.Reaches i j := by
  obtain ⟨hkept, honly⟩ := resolve_grows m pool i j
  refine ⟨honly, fun h => ?_⟩
  rcases h with hj | hij
  · exact hkept hj
  · obtain ⟨touched, hrun, hall⟩ := resolve_of_spelled htext
    obtain ⟨hmem, text', htext'⟩ := hall j hij
    -- What is reached stands in the pool, so there is room for its mark.
    obtain ⟨c, hc⟩ := htext'.present
    rw [hrun, Marks.has_markAll, hm]
    exact .inr ⟨hmem, Pool.lt_count_of_get? hc⟩

end Marked

/-- **Spelling a constant marks exactly what it reads.** Its text or its failure is the same whatever
is marked; with a text, the marks are those there were and those on all that the constant reaches;
with a failure none is lost, and a new one is on something that the constant reaches. -/
theorem resolve_marks_reached (pool : Pool) (i : Index) (m : Marks) (hm : m.size = pool.count) :
    (∀ m', ((resolve pool i).run m').1 = ((resolve pool i).run m).1) ∧
    ((resolve pool i).run m).2.size = m.size ∧
    (∀ text, ((resolve pool i).run m).1 = .ok text →
      ∀ j, ((resolve pool i).run m).2.has j = true ↔ m.has j = true ∨ pool.Reaches i j) ∧
    ∀ e, ((resolve pool i).run m).1 = .error e →
      ∀ j, (m.has j = true → ((resolve pool i).run m).2.has j = true) ∧
        (((resolve pool i).run m).2.has j = true → m.has j = true ∨ pool.Reaches i j) := by
  refine ⟨resolve_result m pool i, size_resolve m pool i, fun text h => ?_, fun _ _ => resolve_grows m pool i⟩
  exact has_resolve m hm ((spelled_iff m).2 h)

/-- A method handle at index 7, and at index 8 a field whose type is no typed name. -/
def handlePool : Pool :=
  ⟨#[some (.utf8 "A"), some (.classRef 1), some (.utf8 "m"), some (.utf8 "()V"), some (.nameAndType 3 4),
    some (.methodref 2 5), some (.methodHandle 5 6), some (.fieldref 2 1)]⟩

/-- The handle is spelled and the field is not; the class of the field is marked all the same. -/
theorem handlePool_marks_reached :
    (Marks.none 9).size = handlePool.count ∧
    ((resolve handlePool 7).run (.none 9)).1 = .ok "invokevirtual A void m()" ∧
    (∀ j, ((resolve handlePool 7).run (.none 9)).2.has j = true ↔
      (Marks.none 9).has j = true ∨ handlePool.Reaches 7 j) ∧
    (resolve handlePool 8).run (.none 9) =
      (.error (ConstantFault.at 1 (.unexpected .nameAndType .utf8)), (Marks.none 9).markAll [8, 2, 1]) ∧
    ∀ j, ((Marks.none 9).markAll [8, 2, 1]).has j = true → (Marks.none 9).has j = true ∨ handlePool.Reaches 8 j := by
  have hsize : (Marks.none 9).size = handlePool.count := by decide
  have hhandle : ((resolve handlePool 7).run (.none 9)).1 = .ok "invokevirtual A void m()" := by decide +kernel
  have hfield : (resolve handlePool 8).run (.none 9) =
      (.error (ConstantFault.at 1 (.unexpected .nameAndType .utf8)), (Marks.none 9).markAll [8, 2, 1]) := by decide +kernel
  have hfails := (resolve_marks_reached handlePool 8 (.none 9) hsize).2.2.2
    (ConstantFault.at 1 (.unexpected .nameAndType .utf8))
  rw [hfield] at hfails
  exact ⟨hsize, hhandle, (resolve_marks_reached handlePool 7 (.none 9) hsize).2.2.1 _ hhandle, hfield,
    fun j => (hfails rfl j).2⟩

end Resolver
end ClassAtlas.Xref
