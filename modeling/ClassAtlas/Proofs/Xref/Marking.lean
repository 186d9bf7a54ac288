import ClassAtlas.Proofs.Xref.Walk

/-! The indices that a rendition marks. Beside the slot numbers of local variables, the walk marks
only names, which are texts and classes; so a literal is marked exactly when some variable lives
in a slot of its number (`has_render_iff`). A slot is no position in the pool, but the marks do
not tell the two apart. -/
namespace ClassAtlas.ClassFile

/-- A constant that stands for a value of the program: a number or a string. -/
def Constant.isLiteral : Constant → Bool
  | integer _ | long _ | float _ | double _ | string _ => true
  | _ => false

/-- An index at which a name is read: a text or a class. -/
def Pool.IsName (p : Pool) (i : Index) : Prop :=
  (∃ text, p.utf8? i = some text) ∨ ∃ name, p.get? i = some (.classRef name)

theorem Pool.get?_of_utf8? {p : Pool} {i : Index} {text : String} (h : p.utf8? i = some text) :
    p.get? i = some (.utf8 text) := by
  unfold utf8? at h
  split at h
  · rename_i value hvalue
    rw [hvalue, Option.some.inj h]
  · cases h

theorem Pool.IsName.not_literal {p : Pool} {i : Index} {k : Constant} (h : p.IsName i)
    (hk : p.get? i = some k) : k.isLiteral = false := by
  rcases h with ⟨text, htext⟩ | ⟨name, hname⟩
  · rw [Pool.get?_of_utf8? htext] at hk
    obtain rfl := Option.some.inj hk
    rfl
  · rw [hname] at hk
    obtain rfl := Option.some.inj hk
    rfl

theorem Pool.lt_count_of_get? {p : Pool} {i : Index} {k : Constant} (h : p.get? i = some k) :
    i.toNat < p.count := by
  unfold get? at h
  split at h
  · cases h
  · rw [Option.join_eq_some_iff] at h
    obtain ⟨hlt, -⟩ := Array.getElem?_eq_some_iff.1 h
    unfold count
    omega

/-- An attribute that is found by a name has that name. -/
theorem Attribute.utf8?_of_find? {p : Pool} {name : String} (hname : name ≠ "") {attributes : List Attribute}
    {a : Attribute} (h : Attribute.find? p name attributes = some a) : p.utf8? a.name = some name := by
  have hfound := List.find?_some (p := fun a : Attribute => (p.utf8? a.name).getD "" == name) h
  cases htext : p.utf8? a.name with
  | none =>
    rw [htext] at hfound
    exact absurd (eq_of_beq hfound).symm hname
  | some text =>
    rw [htext] at hfound
    exact congrArg some (eq_of_beq hfound)

/-- The slot numbers in the tables of local variables of some attributes. -/
def localSlots (attributes : List Attribute) : List Index :=
  (attributes.filterMap (·.code?)).flatMap fun code => code.localTables.flatten.map (·.slot)

/-- The slot numbers of all local variables of a class. -/
def ClassModel.localSlots (c : ClassModel) : List Index :=
  ClassFile.localSlots c.attributes ++ c.methods.flatMap fun m => ClassFile.localSlots m.attributes

end ClassAtlas.ClassFile

namespace ClassAtlas.Xref
open ClassFile

namespace Marks

@[simp] theorem size_markAll (m : Marks) (is : List Index) : (m.markAll is).size = m.size := by
  induction is generalizing m with
  | nil => rfl
  | cons i is ih => exact (ih (m.mark i)).trans (size_mark m i)

theorem has_markAll (m : Marks) (is : List Index) (j : Index) :
    (m.markAll is).has j = true ↔ m.has j = true ∨ j ∈ is ∧ j.toNat < m.size := by
  induction is generalizing m with
  | nil => simp [markAll]
  | cons i is ih =>
    show ((m.mark i).markAll is).has j = true ↔ _
    rw [ih, has_mark, size_mark]
    by_cases hij : i = j
    · subst hij
      simp
      tauto
    · have hji : j ≠ i := fun h => hij h.symm
      simp [hij, hji]

@[simp] theorem has_none (count : Nat) (j : Index) : (none count).has j = false := by
  simp only [none, has, Array.getD_eq_getD_getElem?, Array.getElem?_replicate]
  split <;> rfl

@[simp] theorem size_none (count : Nat) : (none count).size = count := Array.size_replicate

end Marks

/-! ### What a part of the walk marks -/

/-- The items mark the given slot numbers, and beside them only names. -/
structure Marking (pool : Pool) (slots : List Index) (items : List Item) : Prop where
  slot : ∀ s ∈ slots, Item.mark s ∈ items
  name : ∀ i, Item.mark i ∈ items → i ∈ slots ∨ pool.IsName i

namespace Marking

variable {pool : Pool} {slots : List Index} {items : List Item}

theorem of_names (h : ∀ i, Item.mark i ∈ items → pool.IsName i) : Marking pool [] items where
  slot := nofun
  name := fun i hi => .inr (h i hi)

theorem names (h : Marking pool [] items) {i : Index} (hi : Item.mark i ∈ items) : pool.IsName i :=
  (h.name i hi).resolve_left nofun

theorem append {slots' : List Index} {items' : List Item} (h : Marking pool slots items)
    (h' : Marking pool slots' items') : Marking pool (slots ++ slots') (items ++ items') where
  slot := by
    intro s hs
    rcases List.mem_append.1 hs with hs | hs
    · exact List.mem_append_left _ (h.slot s hs)
    · exact List.mem_append_right _ (h'.slot s hs)
  name := by
    intro i hi
    rw [List.mem_append]
    rcases List.mem_append.1 hi with hi | hi
    · rcases h.name i hi with hs | hn
      · exact .inl (.inl hs)
      · exact .inr hn
    · rcases h'.name i hi with hs | hn
      · exact .inl (.inr hs)
      · exact .inr hn

/-- Parts one after the other. -/
theorem flatten {α : Type} {f : α → List Index} {xs : List α} {groups : List (List Item)}
    (h : List.Forall₂ (fun x g => Marking pool (f x) g) xs groups) :
    Marking pool (xs.flatMap f) groups.flatten := by
  induction h with
  | nil => exact .of_names nofun
  | cons hx _ ih => exact hx.append ih

/-- Parts one after the other that mark names only. -/
theorem flatten_names {α : Type} {xs : List α} {groups : List (List Item)}
    (h : List.Forall₂ (fun _ g => Marking pool [] g) xs groups) : Marking pool [] groups.flatten := by
  have h' := flatten h
  rwa [List.flatMap_eq_nil_iff.2 fun _ _ => rfl] at h'

end Marking

namespace Walk

/-! ### Items that mark nothing -/

@[simp] theorem mark_mem_definition {i : Index} {name : String} : ¬ Item.mark i ∈ definition name := by
  simp [definition]

@[simp] theorem mark_mem_reference {i : Index} {name : String} : ¬ Item.mark i ∈ reference name := by
  simp [reference]

@[simp] theorem mark_mem_modifiers {i : Index} {access : AccessFlags} {carrier : AccessFlags.Carrier} :
    ¬ Item.mark i ∈ modifiers access carrier := by
  unfold modifiers
  dsimp only
  split <;> simp

@[simp] theorem mark_mem_packageLine {i : Index} {package : String} : ¬ Item.mark i ∈ packageLine package := by
  unfold packageLine
  split <;> simp

@[simp] theorem mark_mem_parameter {i : Index} {type name : String} : ¬ Item.mark i ∈ parameter type name := by
  unfold parameter
  split <;> simp

theorem mem_separated {x separator : Item} {groups : List (List Item)} (h : x ∈ separated separator groups) :
    x = separator ∨ ∃ g ∈ groups, x ∈ g := by
  induction groups with
  | nil => cases h
  | cons group rest ih =>
    cases rest with
    | nil => exact .inr ⟨group, List.mem_singleton_self group, h⟩
    | cons next rest =>
      rcases List.mem_append.1 h with h | h
      · exact .inr ⟨group, List.mem_cons_self, h⟩
      · rcases List.mem_cons.1 h with rfl | h
        · exact .inl rfl
        · rcases ih h with rfl | ⟨g, hg, hx⟩
          · exact .inl rfl
          · exact .inr ⟨g, List.mem_cons_of_mem _ hg, hx⟩

@[simp] theorem mark_mem_parameters {i : Index} {types names : List String} :
    ¬ Item.mark i ∈ separated (.text ", ") (List.zipWith parameter types names) := by
  intro h
  rcases mem_separated h with h | ⟨g, hg, h⟩
  · cases h
  · rw [← List.map_uncurry_zip_eq_zipWith] at hg
    obtain ⟨⟨type, name⟩, -, rfl⟩ := List.mem_map.1 hg
    exact mark_mem_parameter h

/-! ### The parts of a class -/

variable {pool : Pool} {items : List Item}

theorem className_marks {i : Index} {name : String} (h : className pool i = .ok (name, items)) :
    Marking pool [] items := by
  obtain ⟨n, hi, hn, rfl⟩ := className_eq_ok.1 h
  refine .of_names fun j hj => ?_
  simp only [List.mem_cons, Item.mark.injEq, List.not_mem_nil, or_false] at hj
  rcases hj with rfl | rfl
  · exact .inr ⟨n, hi⟩
  · exact .inl ⟨name, hn⟩

theorem classUse_marks {before : String} {i : Index} (h : classUse pool before i = .ok items) :
    Marking pool [] items := by
  obtain ⟨name, marks, hname, rfl⟩ := classUse_eq_ok.1 h
  refine (className_marks hname).append (.of_names fun j hj => ?_)
  simp at hj

theorem localRow_marks {l : Local} (h : localRow pool l = .ok items) : Marking pool [l.slot] items := by
  obtain ⟨name, text, hname, htext, h⟩ := localRow_eq_ok.1 h
  have hmarks : Marking pool [l.slot] [.mark l.slot, .mark l.name, .mark l.descriptor] := by
    refine ⟨by simp, fun j hj => ?_⟩
    simp only [List.mem_cons, Item.mark.injEq, List.not_mem_nil, or_false] at hj
    rcases hj with rfl | rfl | rfl
    · exact .inl List.mem_cons_self
    · exact .inr (.inl ⟨name, hname⟩)
    · exact .inr (.inl ⟨text, htext⟩)
  rcases h with ⟨-, rfl⟩ | ⟨-, type, -, rfl⟩
  · exact hmarks
  · rw [List.append_assoc, List.append_assoc]
    refine hmarks.append (.of_names fun j hj => ?_)
    simp at hj

theorem locals_marks {code : Code} (h : locals pool code = .ok items) :
    Marking pool (code.localTables.flatten.map (·.slot)) items := by
  obtain ⟨groups, hgroups, rfl⟩ := locals_eq_ok.1 h
  rw [List.map_eq_flatMap]
  exact .flatten (hgroups.imp fun _ _ => localRow_marks)

theorem bodies_marks {attributes : List Attribute} {bodies : List (List Item)}
    (h : List.Forall₂ (fun code g => locals pool code = .ok g) (attributes.filterMap (·.code?)) bodies) :
    Marking pool (localSlots attributes) bodies.flatten :=
  .flatten (h.imp fun _ _ => locals_marks)

theorem field_marks {f : Member} (h : field pool f = .ok items) : Marking pool [] items := by
  obtain ⟨name, text, type, hname, htext, -, rfl⟩ := field_eq_ok.1 h
  refine .of_names fun j hj => ?_
  simp at hj
  rcases hj with rfl | rfl
  · exact .inl ⟨name, hname⟩
  · exact .inl ⟨text, htext⟩

theorem isName_of_find? {name : String} (hname : name ≠ "") {attributes : List Attribute} {a : Attribute}
    (h : Attribute.find? pool name attributes = some a) : pool.IsName a.name :=
  .inl ⟨name, Attribute.utf8?_of_find? hname h⟩

theorem parameterNames_marks {m : Member} {count : Nat} {names : List String}
    (h : parameterNames pool m count = .ok (names, items)) : Marking pool [] items := by
  obtain ⟨marks, rfl, hrows⟩ := parameterNames_eq_ok.1 h
  have hattribute : Marking pool []
      ((Attribute.find? pool "MethodParameters" m.attributes).toList.map (.mark ·.name)) := by
    refine .of_names fun j hj => ?_
    simp only [List.mem_map, Option.mem_toList, Item.mark.injEq] at hj
    obtain ⟨a, ha, rfl⟩ := hj
    exact isName_of_find? (by decide) ha
  refine hattribute.append (.of_names fun j hj => ?_)
  rcases hrows with ⟨-, -, rfl⟩ | ⟨rows, -, hnames, rfl⟩
  · cases hj
  · simp only [List.mem_map, List.mem_filter, Item.mark.injEq, decide_eq_true_eq] at hj
    obtain ⟨p, ⟨hp, hne⟩, rfl⟩ := hj
    obtain ⟨name, -, ⟨hzero, -⟩ | ⟨-, hname⟩⟩ := exists_of_mem_left hnames hp
    · exact absurd hzero hne
    · exact .inl ⟨name, hname⟩

theorem throws_marks {classes : List Index} (h : throws pool classes = .ok items) : Marking pool [] items := by
  obtain ⟨groups, hgroups, rfl⟩ := throws_eq_ok.1 h
  exact .flatten_names (hgroups.imp fun _ _ => classUse_marks)

theorem method_marks {m : Member} (h : method pool m = .ok items) :
    Marking pool (localSlots m.attributes) items := by
  obtain ⟨name, text, result, types, names, marks, thrown, bodies, hname, htext, -, hnames, hthrown, hbodies,
    rfl⟩ := method_eq_ok.1 h
  refine Marking.append (.of_names fun j hj => ?_) (bodies_marks hbodies)
  have hthrows : Marking pool [] thrown.flatten := .flatten_names (hthrown.imp fun _ _ => throws_marks)
  simp only [List.mem_append, List.mem_cons, Item.mark.injEq, List.not_mem_nil, or_false, mark_mem_modifiers,
    mark_mem_definition, mark_mem_parameters, reduceCtorEq] at hj
  rcases hj with ((rfl | rfl) | hj) | hj
  · exact .inl ⟨name, hname⟩
  · exact .inl ⟨text, htext⟩
  · exact (parameterNames_marks hnames).names hj
  · exact hthrows.names hj

theorem sourceFile_marks {c : ClassModel} (h : sourceFile c = .ok items) : Marking c.pool [] items := by
  obtain ⟨name, marks, rfl, hsource⟩ := sourceFile_eq_ok.1 h
  refine .of_names fun j hj => ?_
  rcases hsource with ⟨-, -, rfl⟩ | ⟨a, i, ha, -, hname, rfl⟩
  · simp at hj
  · simp at hj
    rcases hj with rfl | rfl
    · exact isName_of_find? (by decide) ha
    · exact .inl ⟨name, hname⟩

theorem header_marks {c : ClassModel} (h : header c = .ok items) : Marking c.pool [] items := by
  obtain ⟨name, marks, extended, implemented, hname, hsuper, himplemented, rfl⟩ := header_eq_ok.1 h
  have hextended : Marking c.pool [] extended := by
    rcases hsuper with ⟨-, rfl⟩ | ⟨-, hextended⟩
    · exact .of_names nofun
    · exact classUse_marks hextended
  have hinterfaces : Marking c.pool [] implemented.flatten :=
    .flatten_names (himplemented.imp fun _ _ => classUse_marks)
  refine .of_names fun j hj => ?_
  simp only [List.mem_append, List.mem_cons, List.not_mem_nil, or_false, mark_mem_packageLine,
    mark_mem_modifiers, mark_mem_definition, reduceCtorEq] at hj
  rcases hj with (hj | hj) | hj
  · exact (className_marks hname).names hj
  · exact hextended.names hj
  · exact hinterfaces.names hj

theorem items_marks {c : ClassModel} (h : Walk.items c = .ok items) : Marking c.pool c.localSlots items := by
  obtain ⟨source, head, bodies, fields, methods, hsource, hhead, hbodies, hfields, hmethods, rfl⟩ :=
    items_eq_ok.1 h
  have hmembers : Marking c.pool [] fields.flatten := .flatten_names (hfields.imp fun _ _ => field_marks)
  have hmethod : Marking c.pool (c.methods.flatMap fun m => localSlots m.attributes) methods.flatten :=
    .flatten (hmethods.imp fun _ _ => method_marks)
  have hfront := ((sourceFile_marks hsource).append (header_marks hhead)).append (bodies_marks hbodies)
  have hend : Marking c.pool [] [.text "\x7d\n"] := .of_names (by simp)
  have hall := ((hfront.append hmembers).append hmethod).append hend
  simpa [ClassModel.localSlots] using hall

end Walk

/-- A rendition has room for a mark at each index below the count of the pool. -/
theorem size_render {links : Linker} {c : ClassModel} {r : Rendition} (h : render links c = .ok r) :
    r.marks.size = c.pool.count := by
  obtain ⟨items, -, hr⟩ := bind_eq_ok.1 h
  obtain rfl := pure_eq_ok.1 hr
  rw [Marks.size_markAll, Marks.size_none]

/-- **A literal is marked exactly when its index is the slot number of a local variable.** -/
theorem has_render_iff {links : Linker} {c : ClassModel} {r : Rendition} (h : render links c = .ok r)
    {i : Index} {k : Constant} (hk : c.pool.get? i = some k) (hliteral : k.isLiteral = true) :
    r.marks.has i = true ↔ i ∈ c.localSlots := by
  obtain ⟨items, hitems, hr⟩ := bind_eq_ok.1 h
  obtain rfl := pure_eq_ok.1 hr
  have hmarks := Walk.items_marks hitems
  have hmem : i ∈ items.filterMap Item.mark? ↔ Item.mark i ∈ items := by
    rw [List.mem_filterMap]
    constructor
    · rintro ⟨item, hitem, hmark⟩
      cases item <;> cases hmark
      exact hitem
    · intro hi
      exact ⟨_, hi, rfl⟩
  rw [Marks.has_markAll, hmem, Marks.has_none, Marks.size_none]
  constructor
  · rintro (hfalse | ⟨hi, -⟩)
    · cases hfalse
    · refine (hmarks.name i hi).resolve_right fun hname => ?_
      rw [hname.not_literal hk] at hliteral
      cases hliteral
  · intro hi
    exact .inr ⟨hmarks.slot i hi, Pool.lt_count_of_get? hk⟩

end ClassAtlas.Xref
