import ClassAtlas.Proofs.Xref.Renderable

/-! Which indices a rendition marks.

`ClassModel.surfaced` lists them without a walk: what each table of the class refers to, and with a
class the text that names it. Of the attributes that go by name only the first counts, and of the
parameters that it records none unless there are as many as in the descriptor; but every row of a
table of local variables counts, with its slot number, also that of a receiver.

The items of a walk mark these indices one after the other (`Walk.items_marked`), and a mark outside
the pool is ignored; so the marks of a rendition are the listed indices in the pool (`render_marks`). -/
namespace ClassAtlas.ClassFile

/-- The index of a class and the index of its name. -/
def Pool.classIndices (p : Pool) (i : Index) : List Index :=
  match p.get? i with
  | some (.classRef name) => [i, name]
  | _ => [i]

/-- What the rows of the tables of local variables hold where a rendition takes it for an index. -/
def localIndices (attributes : List Attribute) : List Index :=
  (localRows attributes).flatMap fun l => [l.slot, l.name, l.descriptor]

namespace Member

/-- The number of parameters in the descriptor of a method. -/
def arity (p : Pool) (m : Member) : Nat :=
  match MethodType.parse (m.descriptorText p) with
  | .ok t => t.parameters.length
  | .error _ => 0

/-- The name of the first `MethodParameters` attribute and, if it has a row for each parameter, the
names in the rows. -/
def parameterIndices (p : Pool) (m : Member) : List Index :=
  (Attribute.find? p "MethodParameters" m.attributes).toList.map (·.name) ++
    (((Xref.Walk.recordedRows p m (m.arity p)).getD []).map (·.name)).filter (· ≠ 0)

def methodIndices (p : Pool) (m : Member) : List Index :=
  [m.name, m.descriptor] ++ m.parameterIndices p ++
    (m.attributes.filterMap (·.exceptions?)).flatten.flatMap p.classIndices ++ localIndices m.attributes

end Member

/-- The indices that a rendition of the class marks, if they are in the pool. -/
def ClassModel.surfaced (c : ClassModel) : List Index :=
  (c.attribute? "SourceFile").toList.flatMap (fun a => a.name :: a.sourceFile?.toList) ++
    (c.this :: (if c.super = 0 then [] else [c.super]) ++ c.interfaces).flatMap c.pool.classIndices ++
    localIndices c.attributes ++ c.fields.flatMap (fun f => [f.name, f.descriptor]) ++
    c.methods.flatMap (·.methodIndices c.pool)

end ClassAtlas.ClassFile

namespace ClassAtlas.Xref
open ClassFile

/-- The marked indices are those marked before and those of the list that are in the pool. -/
theorem Marks.mem_toList_markAll (m : Marks) (is : List Index) (n : Nat) :
    n ∈ (m.markAll is).toList ↔ n ∈ m.toList ∨ n < m.size ∧ ∃ i ∈ is, i.toNat = n := by
  induction is generalizing m with
  | nil => simp [markAll]
  | cons i is ih =>
    have hmark : n ∈ (m.mark i).toList ↔ n ∈ m.toList ∨ n < m.size ∧ i.toNat = n := by
      simp only [toList, mark, size, List.mem_filter, List.mem_range, Array.size_setIfInBounds,
        Array.getD_eq_getD_getElem?, Array.getElem?_setIfInBounds]
      by_cases hi : i.toNat = n
      · by_cases hn : n < m.flags.size <;> simp [hi, hn]
      · simp [hi]
    show n ∈ ((m.mark i).markAll is).toList ↔ _
    rw [ih, hmark, size_mark]
    simp only [List.mem_cons, exists_eq_or_imp]
    tauto

theorem Marks.toList_none (count : Nat) : (none count).toList = [] := by
  rw [toList, List.filter_eq_nil_iff]
  intro n _
  simp only [none, Array.getD_eq_getD_getElem?, Array.getElem?_replicate]
  split <;> exact Bool.false_ne_true

namespace Walk

/-! ### Items that mark nothing -/

theorem marked_modifiers (access : AccessFlags) (carrier : AccessFlags.Carrier) :
    (modifiers access carrier).filterMap Item.mark? = [] := by
  unfold modifiers
  dsimp only
  split <;> rfl

theorem marked_packageLine (package : String) : (packageLine package).filterMap Item.mark? = [] := by
  unfold packageLine
  split <;> rfl

theorem marked_parameters (types names : List String) :
    (separated (.text ", ") (List.zipWith parameter types names)).filterMap Item.mark? = [] := by
  rw [filterMap_separated rfl, List.flatMap_eq_nil_iff]
  intro group hgroup
  rw [← List.map_uncurry_zip_eq_zipWith] at hgroup
  obtain ⟨⟨type, name⟩, -, rfl⟩ := List.mem_map.1 hgroup
  show (parameter type name).filterMap Item.mark? = []
  unfold parameter
  split <;> rfl

/-- Marks one after the other. -/
theorem marked_map_mark {α : Type} (f : α → Index) (as : List α) :
    (as.map fun a => Item.mark (f a)).filterMap Item.mark? = as.map f := by
  rw [List.filterMap_map]
  exact congrFun List.filterMap_eq_map as

/-! ### The parts of a class -/

variable {pool : Pool} {items : List Item}

theorem className_marked {i : Index} {name : String} (h : className pool i = .ok (name, items)) :
    items.filterMap Item.mark? = pool.classIndices i := by
  obtain ⟨n, hi, -, rfl⟩ := className_eq_ok.1 h
  rw [Pool.classIndices, hi]
  rfl

theorem classUse_marked {before : String} {i : Index} (h : classUse pool before i = .ok items) :
    items.filterMap Item.mark? = pool.classIndices i := by
  obtain ⟨name, marks, hname, rfl⟩ := classUse_eq_ok.1 h
  rw [List.filterMap_append, className_marked hname]
  exact List.append_nil _

theorem classUses_marked (before : Nat → String) {classes : List Index} {groups : List (List Item)}
    (h : List.Forall₂ (fun x g => classUse pool (before x.2) x.1 = .ok g) classes.zipIdx groups) :
    groups.flatten.filterMap Item.mark? = classes.flatMap pool.classIndices :=
  filterMap_groups (forall₂_zipIdx.1 (h.imp fun _ _ => classUse_marked))

theorem localRow_marked {l : Local} (h : localRow pool l = .ok items) :
    items.filterMap Item.mark? = [l.slot, l.name, l.descriptor] := by
  obtain ⟨name, text, -, -, ⟨-, rfl⟩ | ⟨-, type, -, rfl⟩⟩ := localRow_eq_ok.1 h <;> rfl

theorem locals_marked {code : Code} (h : locals pool code = .ok items) :
    items.filterMap Item.mark? = code.localTables.flatten.flatMap fun l => [l.slot, l.name, l.descriptor] := by
  obtain ⟨groups, hgroups, rfl⟩ := locals_eq_ok.1 h
  exact filterMap_groups (hgroups.imp fun _ _ => localRow_marked)

theorem bodies_marked {attributes : List Attribute} {bodies : List (List Item)}
    (h : List.Forall₂ (fun code g => locals pool code = .ok g) (attributes.filterMap (·.code?)) bodies) :
    bodies.flatten.filterMap Item.mark? = localIndices attributes := by
  rw [filterMap_groups (h.imp fun _ _ => locals_marked), localIndices, localRows, List.flatMap_assoc]

theorem field_marked {f : Member} (h : field pool f = .ok items) :
    items.filterMap Item.mark? = [f.name, f.descriptor] := by
  obtain ⟨name, text, type, -, -, -, rfl⟩ := field_eq_ok.1 h
  simp only [List.filterMap_append, List.filterMap_cons, List.filterMap_nil, marked_modifiers, definition, Item.mark?,
    List.append_nil]

theorem parameterNames_marked {m : Member} {names : List String}
    (h : parameterNames pool m (m.arity pool) = .ok (names, items)) :
    items.filterMap Item.mark? = m.parameterIndices pool := by
  obtain ⟨marks, rfl, hrows⟩ := parameterNames_eq_ok.1 h
  rw [List.filterMap_append, marked_map_mark, Member.parameterIndices]
  rcases hrows with ⟨hnone, -, rfl⟩ | ⟨rows, hrows, -, rfl⟩
  · rw [hnone]
    rfl
  · rw [hrows, marked_map_mark, Option.getD_some, List.filter_map]
    rfl

theorem throws_marked {classes : List Index} (h : throws pool classes = .ok items) :
    items.filterMap Item.mark? = classes.flatMap pool.classIndices := by
  obtain ⟨groups, hgroups, rfl⟩ := throws_eq_ok.1 h
  exact classUses_marked (fun number => if number = 0 then " throws " else ", ") hgroups

theorem method_marked {m : Member} (h : method pool m = .ok items) :
    items.filterMap Item.mark? = m.methodIndices pool := by
  obtain ⟨name, text, result, types, names, marks, thrown, bodies, -, htext, hsignature, hnames, hthrown,
    hbodies, rfl⟩ := method_eq_ok.1 h
  obtain ⟨t, ht, -, rfl⟩ := signature_eq_ok.1 hsignature
  have harity : m.arity pool = (t.parameters.map (Spelling.fieldType true)).length := by
    rw [Member.arity, Member.descriptorText, htext, Option.getD_some, ht, List.length_map]
  rw [← harity] at hnames
  have hthrows : thrown.flatten.filterMap Item.mark? =
      (m.attributes.filterMap (·.exceptions?)).flatten.flatMap pool.classIndices := by
    rw [filterMap_groups (hthrown.imp fun _ _ => throws_marked), ← List.flatMap_id, List.flatMap_assoc]
    rfl
  simp only [List.filterMap_append, parameterNames_marked hnames, marked_modifiers, marked_parameters, hthrows,
    bodies_marked hbodies, Member.methodIndices, List.filterMap_cons, List.filterMap_nil, definition, Item.mark?,
    List.append_nil]

/-! ### The class -/

variable {c : ClassModel}

theorem sourceFile_marked (h : sourceFile c = .ok items) :
    items.filterMap Item.mark? =
      (c.attribute? "SourceFile").toList.flatMap fun a => a.name :: a.sourceFile?.toList := by
  obtain ⟨name, marks, rfl, ⟨hnone, -, rfl⟩ | ⟨a, i, ha, hi, -, rfl⟩⟩ := sourceFile_eq_ok.1 h
  · rw [hnone]
    rfl
  · rw [ha, Option.toList_some, List.flatMap_singleton, hi]
    rfl

theorem header_marked (h : header c = .ok items) :
    items.filterMap Item.mark? =
      (c.this :: (if c.super = 0 then [] else [c.super]) ++ c.interfaces).flatMap c.pool.classIndices := by
  obtain ⟨name, marks, extended, implemented, hname, hsuper, himplemented, rfl⟩ := header_eq_ok.1 h
  have hextended : extended.filterMap Item.mark? =
      (if c.super = 0 then [] else [c.super]).flatMap c.pool.classIndices := by
    rcases hsuper with ⟨hzero, rfl⟩ | ⟨hne, hextended⟩
    · rw [if_pos hzero]
      rfl
    · rw [if_neg hne, classUse_marked hextended, List.flatMap_singleton]
  have hinterfaces :=
    classUses_marked (fun number => if number = 0 then " implements " else " ") himplemented
  simp only [List.filterMap_append, className_marked hname, marked_packageLine, marked_modifiers, hextended,
    hinterfaces, List.flatMap_append, List.flatMap_cons, List.filterMap_cons, List.filterMap_nil, definition,
    Item.mark?, List.append_nil, List.nil_append, List.append_assoc, List.cons_append]

theorem items_marked (h : Walk.items c = .ok items) : items.filterMap Item.mark? = c.surfaced := by
  obtain ⟨source, head, bodies, fields, methods, hsource, hhead, hbodies, hfields, hmethods, rfl⟩ :=
    items_eq_ok.1 h
  simp only [List.filterMap_append, sourceFile_marked hsource, header_marked hhead, bodies_marked hbodies,
    filterMap_groups (hfields.imp fun _ _ => field_marked), filterMap_groups (hmethods.imp fun _ _ => method_marked),
    ClassModel.surfaced]
  exact List.append_nil _

end Walk

/-- **A rendition marks the indices in the pool that its class refers to where it is shown**, and no
others. -/
theorem render_marks {links : Linker} {c : ClassModel} {r : Rendition} (h : render links c = .ok r) :
    r.marks.size = c.pool.count ∧
    (∀ i, r.marks.has i = true ↔ i.toNat < c.pool.count ∧ i ∈ c.surfaced) ∧
    ∀ n, n ∈ r.marks.toList ↔ n < c.pool.count ∧ ∃ i ∈ c.surfaced, i.toNat = n := by
  obtain ⟨items, hitems, hr⟩ := bind_eq_ok.1 h
  obtain rfl := pure_eq_ok.1 hr
  rw [Walk.items_marked hitems]
  refine ⟨by simp, fun i => ?_, fun n => ?_⟩
  · rw [Marks.has_markAll, Marks.has_none, Marks.size_none]
    simp [and_comm]
  · rw [Marks.mem_toList_markAll, Marks.toList_none, Marks.size_none]
    simp

/-- A class with two source files, a superclass, an interface and an exception, names for the parameters of
both methods but too many for the second, a receiver, and slots in the pool and outside of it. -/
def variedClass : ClassModel where
  minor := 0
  major := 52
  pool := ⟨#[some (.utf8 "p/A"), some (.classRef 1), some (.utf8 "java/lang/Object"), some (.classRef 3),
    some (.utf8 "SourceFile"), some (.utf8 "A.java"), some (.utf8 "B.java"), some (.utf8 "f"), some (.utf8 "I"),
    some (.utf8 "m"), some (.utf8 "(IJ)V"), some (.utf8 "MethodParameters"), some (.utf8 "x"), some (.utf8 "()V"),
    some (.utf8 "y"), some (.classRef 17), some (.utf8 "java/io/IOException"), some (.utf8 "Code"),
    some (.utf8 "this"), some (.utf8 "Lp/A;"), some (.utf8 "v"), some (.integer 7), some (.integer 8),
    some (.utf8 "java/lang/Runnable"), some (.classRef 24), some (.utf8 "Exceptions"),
    some (.utf8 "LocalVariableTable")]⟩
  access := 1
  this := 2
  super := 4
  interfaces := [25]
  fields := [⟨2, 8, 9, []⟩]
  methods := [⟨1, 10, 11, [⟨12, [], some (.parameters [⟨13, 0⟩, ⟨0, 0⟩])⟩, ⟨26, [], some (.exceptions [16])⟩,
      ⟨18, [], some (.code ⟨0, 0, [], [], [⟨27, [], some [⟨0, 0, 19, 20, 0⟩, ⟨0, 0, 13, 9, 999⟩]⟩]⟩)⟩]⟩,
    ⟨1, 10, 14, [⟨12, [], some (.parameters [⟨15, 0⟩])⟩]⟩]
  attributes := [⟨5, [], some (.sourceFile 6)⟩, ⟨5, [], some (.sourceFile 7)⟩,
    ⟨18, [], some (.code ⟨0, 0, [], [], [⟨27, [], some [⟨0, 0, 21, 9, 22⟩]⟩]⟩)⟩]

theorem exists_render_variedClass : ∃ r, render ⟨"/s?"⟩ variedClass = .ok r := by
  have hok : (render ⟨"/s?"⟩ variedClass).isOk = true := by decide +kernel
  cases hr : render ⟨"/s?"⟩ variedClass with
  | error e =>
    rw [hr] at hok
    cases hok
  | ok r => exact ⟨r, rfl⟩

/-- The number at index 22 is marked for the slot of a variable. The source file at 7 and the parameter's name
at 15 are not marked, as they are not shown. -/
theorem variedClass_marks : ∃ r, render ⟨"/s?"⟩ variedClass = .ok r ∧ r.marks.size = 28 ∧
    r.marks.has 22 = true ∧ r.marks.has 7 = false ∧ r.marks.has 15 = false := by
  obtain ⟨r, hr⟩ := exists_render_variedClass
  obtain ⟨hsize, hhas, -⟩ := render_marks hr
  refine ⟨r, hr, hsize, (hhas 22).2 (by decide), ?_, ?_⟩
  · exact Bool.eq_false_iff.2 (mt (hhas 7).1 (by decide +kernel))
  · exact Bool.eq_false_iff.2 (mt (hhas 15).1 (by decide +kernel))

end ClassAtlas.Xref
