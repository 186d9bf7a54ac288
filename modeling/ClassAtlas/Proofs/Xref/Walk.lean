import ClassAtlas.Proofs.Success
import ClassAtlas.Xref.Rendition

/-! The walk over a class, read backwards: when a part of it succeeds, and which items it then
yields. There is one statement for each part of the class, each in terms of the parts inside it,
and none of them mentions how a failure is told. -/
namespace ClassAtlas.Xref.Walk
open ClassFile

variable {α : Type} {pool : Pool}

@[simp] theorem within_eq_ok {part : Part} {w : Walk α} {a : α} : within part w = .ok a ↔ w = .ok a :=
  mapError_eq_ok

@[simp] theorem fail_ne_ok {fault : ModelFault} {a : α} : ¬ fail fault = .ok a := nofun

@[simp] theorem utf8_eq_ok {i : Index} {text : String} : utf8 pool i = .ok text ↔ pool.utf8? i = some text := by
  unfold utf8
  split <;> simp [*]

/-! ### Classes -/

theorem className_eq_ok {i : Index} {name : String} {marks : List Item} :
    className pool i = .ok (name, marks) ↔
      ∃ n, pool.get? i = some (.classRef n) ∧ pool.utf8? n = some name ∧ marks = [.mark i, .mark n] := by
  unfold className
  split
  · rename_i n hn
    rw [bind_eq_ok]
    simp only [utf8_eq_ok, pure_eq_ok, Prod.mk.injEq]
    constructor
    · rintro ⟨_, htext, rfl, rfl⟩
      exact ⟨n, hn, htext, rfl⟩
    · rintro ⟨n', hn', htext, rfl⟩
      obtain rfl : n = n' := by simpa [hn] using hn'
      exact ⟨name, htext, rfl, rfl⟩
  · rename_i h
    simp only [fail_ne_ok, false_iff]
    rintro ⟨n, hn, -⟩
    exact h n hn

theorem classUse_eq_ok {before : String} {i : Index} {items : List Item} :
    classUse pool before i = .ok items ↔
      ∃ name marks, className pool i = .ok (name, marks) ∧
        items = marks ++ .text before :: reference (Spelling.className true name) := by
  unfold classUse
  simp only [bind_eq_ok, pure_eq_ok, Prod.exists]

/-! ### Local variables -/

/-- A row marks its slot number, its name and its descriptor, and shows the variable unless it
is the receiver. -/
theorem localRow_eq_ok {l : Local} {items : List Item} :
    localRow pool l = .ok items ↔
      ∃ name text, pool.utf8? l.name = some name ∧ pool.utf8? l.descriptor = some text ∧
        (name = "this" ∧ items = [.mark l.slot, .mark l.name, .mark l.descriptor] ∨
          name ≠ "this" ∧ ∃ type, Spelling.type true text = .ok type ∧
            items = [.mark l.slot, .mark l.name, .mark l.descriptor] ++
              [.text "\t\t", .text type, .text " "] ++ definition name ++ [.text "\n"]) := by
  unfold localRow
  simp only [bind_eq_ok, within_eq_ok, utf8_eq_ok]
  constructor
  · rintro ⟨name, hname, text, htext, h⟩
    refine ⟨name, text, hname, htext, ?_⟩
    split at h
    · rename_i hthis
      exact .inl ⟨hthis, pure_eq_ok.1 h⟩
    · rename_i hthis
      cases htype : Spelling.type true text with
      | error fault =>
        rw [htype] at h
        exact absurd h fail_ne_ok
      | ok type =>
        rw [htype] at h
        exact .inr ⟨hthis, type, rfl, pure_eq_ok.1 h⟩
  · rintro ⟨name, text, hname, htext, ⟨hthis, rfl⟩ | ⟨hthis, type, htype, rfl⟩⟩
    · refine ⟨name, hname, text, htext, ?_⟩
      rw [if_pos hthis]
      rfl
    · refine ⟨name, hname, text, htext, ?_⟩
      rw [if_neg hthis, htype]
      rfl

theorem locals_eq_ok {code : Code} {items : List Item} :
    locals pool code = .ok items ↔
      ∃ groups, List.Forall₂ (fun l g => localRow pool l = .ok g) code.localTables.flatten groups ∧
        groups.flatten = items := by
  unfold locals
  rw [map_eq_ok]
  simp only [mapM_eq_ok]

/-! ### Members -/

theorem field_eq_ok {f : Member} {items : List Item} :
    field pool f = .ok items ↔
      ∃ name text type, pool.utf8? f.name = some name ∧ pool.utf8? f.descriptor = some text ∧
        Spelling.type true text = .ok type ∧
        items = [.mark f.name, .mark f.descriptor, .text "\t"] ++ modifiers f.access .field ++
          [.text type, .text " "] ++ definition name ++ [.text "\n"] := by
  unfold field
  simp only [bind_eq_ok, utf8_eq_ok]
  constructor
  · rintro ⟨name, hname, text, htext, h⟩
    cases htype : Spelling.type true text with
    | error fault =>
      rw [htype] at h
      exact absurd h fail_ne_ok
    | ok type =>
      rw [htype] at h
      exact ⟨name, text, type, hname, htext, htype, pure_eq_ok.1 h⟩
  · rintro ⟨name, text, type, hname, htext, htype, rfl⟩
    refine ⟨name, hname, text, htext, ?_⟩
    rw [htype]
    rfl

/-- The name a parameter row stands for: index zero is no name. -/
def Names (pool : Pool) (p : Parameter) (name : String) : Prop :=
  p.name = 0 ∧ name = "" ∨ p.name ≠ 0 ∧ pool.utf8? p.name = some name

theorem parameterName_eq_ok {number : Nat} {p : Parameter} {name : String} :
    parameterName pool number p = .ok name ↔ Names pool p name := by
  unfold parameterName Names
  split
  · rename_i hzero
    simp [hzero, pure_eq_ok]
  · rename_i hzero
    simp [hzero]

/-- The recorded rows that count for a method with the given number of parameters. -/
def recordedRows (pool : Pool) (m : Member) (count : Nat) : Option (List Parameter) :=
  ((Attribute.find? pool "MethodParameters" m.attributes).bind (·.parameters?)).filter
    (·.length = count)

/-- The attribute is marked when it is there, and its rows when they count. -/
theorem parameterNames_eq_ok {m : Member} {count : Nat} {names : List String} {items : List Item} :
    parameterNames pool m count = .ok (names, items) ↔
      ∃ marks,
        items = (Attribute.find? pool "MethodParameters" m.attributes).toList.map (.mark ·.name) ++ marks ∧
        (recordedRows pool m count = none ∧ names = List.replicate count "" ∧ marks = [] ∨
          ∃ rows, recordedRows pool m count = some rows ∧ List.Forall₂ (Names pool) rows names ∧
            marks = (rows.filter (·.name ≠ 0)).map (.mark ·.name)) := by
  unfold parameterNames recordedRows
  cases Attribute.find? pool "MethodParameters" m.attributes with
  | none => simp [pure_eq_ok]
  | some a =>
    dsimp only [Option.bind_some]
    cases a.parameters? with
    | none => simp [pure_eq_ok, and_comm]
    | some rows =>
      by_cases hlen : rows.length = count
      · simp only [hlen, if_true, bind_eq_ok, pure_eq_ok, mapM_eq_ok, parameterName_eq_ok, forall₂_zipIdx,
          Prod.mk.injEq]
        constructor
        · rintro ⟨_, hnames, rfl, rfl⟩
          exact ⟨_, rfl, .inr ⟨rows, by simp [hlen], hnames, rfl⟩⟩
        · rintro ⟨_, rfl, ⟨hnone, -⟩ | ⟨rows', hrows, hnames, rfl⟩⟩
          · simp [hlen] at hnone
          · obtain rfl := Option.some.inj (Option.filter_eq_some_iff.1 hrows).1
            exact ⟨names, hnames, rfl, rfl⟩
      · simp [hlen, pure_eq_ok, and_comm]

theorem throws_eq_ok {classes : List Index} {items : List Item} :
    throws pool classes = .ok items ↔
      ∃ groups, List.Forall₂ (fun x g => classUse pool (if x.2 = 0 then " throws " else ", ") x.1 = .ok g)
        classes.zipIdx groups ∧ groups.flatten = items := by
  unfold throws
  rw [map_eq_ok]
  simp only [mapM_eq_ok, within_eq_ok]

/-- A signature is spelled when the descriptor is read, with a text for each parameter. -/
theorem signature_eq_ok {short : Bool} {text result : String} {types : List String} :
    Spelling.signature short text = .ok (result, types) ↔
      ∃ t, MethodType.parse text = .ok t ∧ result = t.result.elim "void" (Spelling.fieldType short) ∧
        types = t.parameters.map (Spelling.fieldType short) := by
  unfold Spelling.signature
  simp only [bind_eq_ok, pure_eq_ok, Prod.mk.injEq]
  refine exists_congr fun t => and_congr_right fun _ => and_congr_left fun _ => ?_
  cases t.result <;> rfl

theorem method_eq_ok {m : Member} {items : List Item} :
    method pool m = .ok items ↔
      ∃ name text result types names marks thrown bodies, pool.utf8? m.name = some name ∧
        pool.utf8? m.descriptor = some text ∧ Spelling.signature true text = .ok (result, types) ∧
        parameterNames pool m types.length = .ok (names, marks) ∧
        List.Forall₂ (fun classes g => throws pool classes = .ok g)
          (m.attributes.filterMap (·.exceptions?)) thrown ∧
        List.Forall₂ (fun code g => locals pool code = .ok g) (m.attributes.filterMap (·.code?)) bodies ∧
        items = [.mark m.name, .mark m.descriptor] ++ marks ++ [.text "\t"] ++
          modifiers m.access .method ++ [.text result, .text " "] ++ definition name ++ [.text "("] ++
          separated (.text ", ") (List.zipWith parameter types names) ++ [.text ")"] ++
          thrown.flatten ++ [.text "\n"] ++ bodies.flatten := by
  unfold method
  simp only [bind_eq_ok, utf8_eq_ok]
  constructor
  · rintro ⟨name, hname, text, htext, h⟩
    cases hsignature : Spelling.signature true text with
    | error fault =>
      rw [hsignature] at h
      exact absurd h fail_ne_ok
    | ok signature =>
      obtain ⟨result, types⟩ := signature
      rw [hsignature] at h
      simp only [within_eq_ok, bind_eq_ok, mapM_eq_ok, pure_eq_ok] at h
      obtain ⟨⟨names, marks⟩, hnames, thrown, hthrown, bodies, hbodies, rfl⟩ := h
      exact ⟨name, text, result, types, names, marks, thrown, bodies, hname, htext, hsignature, hnames,
        hthrown, hbodies, rfl⟩
  · rintro ⟨name, text, result, types, names, marks, thrown, bodies, hname, htext, hsignature, hnames,
      hthrown, hbodies, rfl⟩
    refine ⟨name, hname, text, htext, ?_⟩
    rw [hsignature]
    simp only [within_eq_ok, bind_eq_ok, mapM_eq_ok, pure_eq_ok]
    exact ⟨(names, marks), hnames, thrown, hthrown, bodies, hbodies, rfl⟩

/-! ### The class -/

/-- A class without the attribute goes by the stand-in; one with it needs a readable name. -/
theorem sourceFile_eq_ok {c : ClassModel} {items : List Item} :
    sourceFile c = .ok items ↔
      ∃ name marks, items = marks ++ [.link .path name, .defines name, .text "\n"] ∧
        (c.attribute? "SourceFile" = none ∧ name = unknownSource ∧ marks = [] ∨
          ∃ a i, c.attribute? "SourceFile" = some a ∧ a.sourceFile? = some i ∧ c.pool.utf8? i = some name ∧
            marks = [.mark a.name, .mark i]) := by
  unfold sourceFile
  cases c.attribute? "SourceFile" with
  | none => simp [pure_eq_ok]
  | some a =>
    dsimp only
    cases ha : a.sourceFile? with
    | none => simp [ha, bind_eq_ok, -bind_pure_comp]
    | some i =>
      simp only [bind_eq_ok, within_eq_ok, utf8_eq_ok, pure_eq_ok]
      constructor
      · rintro ⟨name, hname, _, rfl, rfl⟩
        exact ⟨name, _, rfl, .inr ⟨a, i, rfl, ha, hname, rfl⟩⟩
      · rintro ⟨name, _, rfl, ⟨hnone, -⟩ | ⟨a', i', ha', hi', hname, rfl⟩⟩
        · cases hnone
        · obtain rfl := Option.some.inj ha'
          obtain rfl := Option.some.inj (ha.symm.trans hi')
          exact ⟨name, hname, _, rfl, rfl⟩

theorem header_eq_ok {c : ClassModel} {items : List Item} :
    header c = .ok items ↔
      ∃ name marks extended implemented, className c.pool c.this = .ok (name, marks) ∧
        (c.super = 0 ∧ extended = [] ∨ c.super ≠ 0 ∧ classUse c.pool " extends " c.super = .ok extended) ∧
        List.Forall₂ (fun x g => classUse c.pool (if x.2 = 0 then " implements " else " ") x.1 = .ok g)
          c.interfaces.zipIdx implemented ∧
        items = marks ++ packageLine (splitName (Spelling.className false name)).1 ++
          modifiers c.access .type ++ definition (splitName (Spelling.className false name)).2 ++
          extended ++ implemented.flatten ++ [.text " \x7b\n"] := by
  unfold header
  by_cases hsuper : c.super = 0
  · simp only [hsuper, if_true, pure_bind, bind_eq_ok, within_eq_ok, mapM_eq_ok, pure_eq_ok, Prod.exists]
    constructor
    · rintro ⟨name, marks, hname, implemented, himplemented, rfl⟩
      exact ⟨name, marks, [], implemented, hname, .inl ⟨trivial, rfl⟩, himplemented, rfl⟩
    · rintro ⟨name, marks, _, implemented, hname, ⟨-, rfl⟩ | ⟨hne, -⟩, himplemented, rfl⟩
      · exact ⟨name, marks, hname, implemented, himplemented, rfl⟩
      · exact absurd rfl hne
  · simp only [hsuper, if_false, bind_eq_ok, within_eq_ok, mapM_eq_ok, pure_eq_ok, Prod.exists]
    constructor
    · rintro ⟨name, marks, hname, extended, hextended, implemented, himplemented, rfl⟩
      exact ⟨name, marks, extended, implemented, hname, .inr ⟨hsuper, hextended⟩, himplemented, rfl⟩
    · rintro ⟨name, marks, extended, implemented, hname, ⟨hzero, -⟩ | ⟨-, hextended⟩, himplemented, rfl⟩
      · exact hzero.elim
      · exact ⟨name, marks, hname, extended, hextended, implemented, himplemented, rfl⟩

theorem items_eq_ok {c : ClassModel} {items : List Item} :
    Walk.items c = .ok items ↔
      ∃ source head bodies fields methods, sourceFile c = .ok source ∧ header c = .ok head ∧
        List.Forall₂ (fun code g => locals c.pool code = .ok g) (c.attributes.filterMap (·.code?)) bodies ∧
        List.Forall₂ (fun f g => field c.pool f = .ok g) c.fields fields ∧
        List.Forall₂ (fun m g => method c.pool m = .ok g) c.methods methods ∧
        items = source ++ head ++ bodies.flatten ++ fields.flatten ++ methods.flatten ++ [.text "\x7d\n"] := by
  have hfields := @forall₂_zipIdx _ _ (fun f g => field c.pool f = .ok g) c.fields
  have hmethods := @forall₂_zipIdx _ _ (fun m g => method c.pool m = .ok g) c.methods
  unfold Walk.items
  simp only [bind_eq_ok, within_eq_ok, mapM_eq_ok, pure_eq_ok, hfields, hmethods]
  constructor
  · rintro ⟨source, hsource, head, hhead, bodies, hbodies, fields, hf, methods, hm, rfl⟩
    exact ⟨source, head, bodies, fields, methods, hsource, hhead, hbodies, hf, hm, rfl⟩
  · rintro ⟨source, head, bodies, fields, methods, hsource, hhead, hbodies, hf, hm, rfl⟩
    exact ⟨source, hsource, head, hhead, bodies, hbodies, fields, hf, methods, hm, rfl⟩

/-! ### Items between separators -/

/-- What is picked from groups with a separator that is not picked. -/
theorem filterMap_separated {f : Item → Option α} {separator : Item} (h : f separator = none)
    (groups : List (List Item)) : (separated separator groups).filterMap f = groups.flatMap (List.filterMap f) := by
  induction groups with
  | nil => rfl
  | cons group rest ih =>
    cases rest with
    | nil => simp [separated]
    | cons next rest =>
      rw [separated, List.filterMap_append, List.filterMap_cons_none h, ih]
      · rfl
      · exact List.cons_ne_nil next rest

end ClassAtlas.Xref.Walk
