import ClassAtlas.Proofs.ClassFile.Decoding
import ClassAtlas.Proofs.Xref.Faults
import ClassAtlas.Proofs.Xref.Marking

/-! Which classes can be rendered.

A rendition needs a class or a text at each index that it reads, and a descriptor in each text that
it spells as a type. `IsRenderable` says where: in the header, in the rows of the tables of local
variables, and in each member. Some indices are never read, so nothing is asked of them: those of
attributes behind the first of their name, of parameters when their number is not the descriptor's,
and zero where it stands for nothing. The descriptor of a receiver is read but not spelled.

These needs are all there are (`exists_render_iff`). A class that was read from a file meets one of
them by itself, for its attributes have the contents that go with their names; so of the failures of
the walk one never happens (`decode_renders_iff`). -/
namespace ClassAtlas.ClassFile

theorem Pool.hasText_iff {p : Pool} {i : Index} {P : String → Prop} :
    p.HasText i P ↔ ∃ text, p.utf8? i = some text ∧ P text := by
  unfold HasText utf8?
  cases p.get? i with
  | none => simp
  | some c => cases c <;> simp

/-- A class stands at the index, and its name is a text. -/
def Pool.NamesClass (p : Pool) (i : Index) : Prop :=
  ∃ name, p.get? i = some (.classRef name) ∧ p.HasText name fun _ => True

/-- The rows of all tables of local variables among some attributes, in file order. -/
def localRows (attributes : List Attribute) : List Local :=
  (attributes.filterMap (·.code?)).flatMap fun code => code.localTables.flatten

/-- A local variable has a name and a descriptor, which spells a type unless it is the receiver's. -/
def Local.IsReadable (p : Pool) (l : Local) : Prop :=
  p.HasText l.name fun name => p.HasText l.descriptor fun text =>
    name ≠ "this" → ∃ s, Spelling.type true text = .ok s

structure Member.IsField (p : Pool) (f : Member) : Prop where
  name : p.HasText f.name fun _ => True
  descriptor : p.HasText f.descriptor fun text => ∃ s, Spelling.type true text = .ok s

/-- The recorded rows of a method with so many parameters have texts for names, or zero. -/
def Member.NamesParameters (p : Pool) (m : Member) (count : Nat) : Prop :=
  ∀ rows, Xref.Walk.recordedRows p m count = some rows → ∀ row ∈ rows, row.name ≠ 0 →
    p.HasText row.name fun _ => True

structure Member.IsMethod (p : Pool) (m : Member) : Prop where
  name : p.HasText m.name fun _ => True
  descriptor : p.HasText m.descriptor fun text =>
    ∃ t, MethodType.parse text = .ok t ∧ m.NamesParameters p t.parameters.length
  exceptions : ∀ classes ∈ m.attributes.filterMap (·.exceptions?), ∀ i ∈ classes, p.NamesClass i
  locals : ∀ l ∈ localRows m.attributes, l.IsReadable p

/-- All that a rendition of the class needs. -/
structure ClassModel.IsRenderable (c : ClassModel) : Prop where
  this : c.pool.NamesClass c.this
  super : c.super ≠ 0 → c.pool.NamesClass c.super
  interfaces : ∀ i ∈ c.interfaces, c.pool.NamesClass i
  sourceFile : ∀ a, c.attribute? "SourceFile" = some a →
    ∃ i, a.sourceFile? = some i ∧ c.pool.HasText i fun _ => True
  fields : ∀ f ∈ c.fields, f.IsField c.pool
  methods : ∀ m ∈ c.methods, m.IsMethod c.pool
  locals : ∀ l ∈ localRows c.attributes, l.IsReadable c.pool

end ClassAtlas.ClassFile

namespace ClassAtlas.Xref
open ClassFile

namespace Walk

/-! ### The parts of a class -/

variable {pool : Pool}

theorem exists_className_iff {i : Index} :
    (∃ name marks, className pool i = .ok (name, marks)) ↔ pool.NamesClass i := by
  simp only [className_eq_ok, Pool.NamesClass, Pool.hasText_iff]
  constructor
  · rintro ⟨name, _, n, hi, hname, -⟩
    exact ⟨n, hi, name, hname, trivial⟩
  · rintro ⟨n, hi, name, hname, -⟩
    exact ⟨name, _, n, hi, hname, rfl⟩

theorem exists_classUse_iff (before : String) {i : Index} :
    (∃ items, classUse pool before i = .ok items) ↔ pool.NamesClass i := by
  simp only [← exists_className_iff, classUse_eq_ok]
  constructor
  · rintro ⟨_, name, marks, hname, -⟩
    exact ⟨name, marks, hname⟩
  · rintro ⟨name, marks, hname⟩
    exact ⟨_, name, marks, hname, rfl⟩

/-- Classes in a row, each after a text that hangs on its number. -/
theorem exists_classUses_iff (before : Nat → String) {classes : List Index} :
    (∃ groups, List.Forall₂ (fun x g => classUse pool (before x.2) x.1 = .ok g) classes.zipIdx groups) ↔
      ∀ i ∈ classes, pool.NamesClass i := by
  simp only [exists_forall₂_iff, exists_classUse_iff]
  exact forall_mem_zipIdx

theorem exists_localRow_iff {l : Local} : (∃ items, localRow pool l = .ok items) ↔ l.IsReadable pool := by
  simp only [localRow_eq_ok, Local.IsReadable, Pool.hasText_iff]
  constructor
  · rintro ⟨_, name, text, hname, htext, ⟨hthis, -⟩ | ⟨-, type, htype, -⟩⟩
    · exact ⟨name, hname, text, htext, fun hother => absurd hthis hother⟩
    · exact ⟨name, hname, text, htext, fun _ => ⟨type, htype⟩⟩
  · rintro ⟨name, hname, text, htext, htyped⟩
    by_cases hthis : name = "this"
    · exact ⟨_, name, text, hname, htext, .inl ⟨hthis, rfl⟩⟩
    · obtain ⟨type, htype⟩ := htyped hthis
      exact ⟨_, name, text, hname, htext, .inr ⟨hthis, type, htype, rfl⟩⟩

theorem exists_locals_iff {code : Code} :
    (∃ items, locals pool code = .ok items) ↔ ∀ l ∈ code.localTables.flatten, l.IsReadable pool := by
  simp only [locals_eq_ok, ← exists_localRow_iff, ← exists_forall₂_iff]
  constructor
  · rintro ⟨_, groups, hgroups, -⟩
    exact ⟨groups, hgroups⟩
  · rintro ⟨groups, hgroups⟩
    exact ⟨_, groups, hgroups, rfl⟩

/-- The local variables of all code among some attributes. -/
theorem exists_bodies_iff {attributes : List Attribute} :
    (∃ bodies, List.Forall₂ (fun code g => locals pool code = .ok g) (attributes.filterMap (·.code?)) bodies) ↔
      ∀ l ∈ localRows attributes, l.IsReadable pool := by
  simp only [exists_forall₂_iff, exists_locals_iff, localRows]
  exact List.forall_mem_flatMap.symm

theorem exists_field_iff {f : Member} : (∃ items, field pool f = .ok items) ↔ f.IsField pool := by
  simp only [field_eq_ok]
  constructor
  · rintro ⟨_, name, text, type, hname, htext, htype, -⟩
    exact ⟨Pool.hasText_iff.2 ⟨name, hname, trivial⟩, Pool.hasText_iff.2 ⟨text, htext, type, htype⟩⟩
  · intro h
    obtain ⟨name, hname, -⟩ := Pool.hasText_iff.1 h.name
    obtain ⟨text, htext, type, htype⟩ := Pool.hasText_iff.1 h.descriptor
    exact ⟨_, name, text, type, hname, htext, htype, rfl⟩

theorem exists_names_iff {row : Parameter} :
    (∃ name, Names pool row name) ↔ (row.name ≠ 0 → pool.HasText row.name fun _ => True) := by
  simp only [Names, Pool.hasText_iff, and_true]
  by_cases hzero : row.name = 0
  · simp [hzero]
  · simp [hzero]

theorem exists_parameterNames_iff {m : Member} {count : Nat} :
    (∃ names marks, parameterNames pool m count = .ok (names, marks)) ↔ m.NamesParameters pool count := by
  simp only [parameterNames_eq_ok, Member.NamesParameters, ← exists_names_iff, ← exists_forall₂_iff]
  constructor
  · rintro ⟨names, _, marks, -, ⟨hnone, -⟩ | ⟨rows, hrows, hnames, -⟩⟩ rows' hrows'
    · rw [hnone] at hrows'
      cases hrows'
    · rw [hrows] at hrows'
      obtain rfl := Option.some.inj hrows'
      exact ⟨names, hnames⟩
  · intro h
    cases hrows : recordedRows pool m count with
    | none => exact ⟨_, _, _, rfl, .inl ⟨rfl, rfl, rfl⟩⟩
    | some rows =>
      obtain ⟨names, hnames⟩ := h rows hrows
      exact ⟨names, _, _, rfl, .inr ⟨rows, rfl, hnames, rfl⟩⟩

theorem exists_throws_iff {classes : List Index} :
    (∃ items, throws pool classes = .ok items) ↔ ∀ i ∈ classes, pool.NamesClass i := by
  rw [← exists_classUses_iff (fun number => if number = 0 then " throws " else ", ")]
  simp only [throws_eq_ok]
  constructor
  · rintro ⟨_, groups, hgroups, -⟩
    exact ⟨groups, hgroups⟩
  · rintro ⟨groups, hgroups⟩
    exact ⟨_, groups, hgroups, rfl⟩

theorem exists_method_iff {m : Member} : (∃ items, method pool m = .ok items) ↔ m.IsMethod pool := by
  simp only [method_eq_ok]
  constructor
  · rintro ⟨_, name, text, result, types, names, marks, thrown, bodies, hname, htext, hsignature, hnames,
      hthrown, hbodies, -⟩
    obtain ⟨t, ht, -, rfl⟩ := signature_eq_ok.1 hsignature
    rw [List.length_map] at hnames
    refine ⟨Pool.hasText_iff.2 ⟨name, hname, trivial⟩,
      Pool.hasText_iff.2 ⟨text, htext, t, ht, exists_parameterNames_iff.1 ⟨names, marks, hnames⟩⟩, ?_,
      exists_bodies_iff.1 ⟨bodies, hbodies⟩⟩
    intro classes hclasses
    exact exists_throws_iff.1 (exists_forall₂_iff.1 ⟨thrown, hthrown⟩ classes hclasses)
  · intro h
    obtain ⟨name, hname, -⟩ := Pool.hasText_iff.1 h.name
    obtain ⟨text, htext, t, ht, hparameters⟩ := Pool.hasText_iff.1 h.descriptor
    have hsignature : Spelling.signature true text = .ok (_, _) := signature_eq_ok.2 ⟨t, ht, rfl, rfl⟩
    obtain ⟨names, marks, hnames⟩ := exists_parameterNames_iff.2 hparameters
    obtain ⟨thrown, hthrown⟩ := exists_forall₂_iff.2 fun classes hclasses =>
      exists_throws_iff.2 (h.exceptions classes hclasses)
    obtain ⟨bodies, hbodies⟩ := exists_bodies_iff.2 h.locals
    rw [← List.length_map (f := Spelling.fieldType true)] at hnames
    exact ⟨_, name, text, _, _, names, marks, thrown, bodies, hname, htext, hsignature, hnames, hthrown,
      hbodies, rfl⟩

/-! ### The class -/

variable {c : ClassModel}

theorem exists_sourceFile_iff :
    (∃ items, sourceFile c = .ok items) ↔ ∀ a, c.attribute? "SourceFile" = some a →
      ∃ i, a.sourceFile? = some i ∧ c.pool.HasText i fun _ => True := by
  simp only [sourceFile_eq_ok, Pool.hasText_iff]
  constructor
  · rintro ⟨_, name, _, -, ⟨hnone, -⟩ | ⟨a, i, ha, hi, hname, -⟩⟩ a' ha'
    · rw [hnone] at ha'
      cases ha'
    · rw [ha] at ha'
      obtain rfl := Option.some.inj ha'
      exact ⟨i, hi, name, hname, trivial⟩
  · intro h
    cases ha : c.attribute? "SourceFile" with
    | none => exact ⟨_, _, _, rfl, .inl ⟨rfl, rfl, rfl⟩⟩
    | some a =>
      obtain ⟨i, hi, name, hname, -⟩ := h a ha
      exact ⟨_, name, _, rfl, .inr ⟨a, i, rfl, hi, hname, rfl⟩⟩

theorem exists_header_iff :
    (∃ items, header c = .ok items) ↔ c.pool.NamesClass c.this ∧ (c.super ≠ 0 → c.pool.NamesClass c.super) ∧
      ∀ i ∈ c.interfaces, c.pool.NamesClass i := by
  rw [← exists_classUses_iff (fun number => if number = 0 then " implements " else " "),
    ← exists_className_iff, ← exists_classUse_iff " extends " (i := c.super)]
  simp only [header_eq_ok]
  constructor
  · rintro ⟨_, name, marks, extended, implemented, hname, hsuper, himplemented, -⟩
    refine ⟨⟨name, marks, hname⟩, fun hne => ?_, ⟨implemented, himplemented⟩⟩
    rcases hsuper with ⟨hzero, -⟩ | ⟨-, hextended⟩
    · exact absurd hzero hne
    · exact ⟨extended, hextended⟩
  · rintro ⟨⟨name, marks, hname⟩, hsuper, ⟨implemented, himplemented⟩⟩
    by_cases hzero : c.super = 0
    · exact ⟨_, name, marks, [], implemented, hname, .inl ⟨hzero, rfl⟩, himplemented, rfl⟩
    · obtain ⟨extended, hextended⟩ := hsuper hzero
      exact ⟨_, name, marks, extended, implemented, hname, .inr ⟨hzero, hextended⟩, himplemented, rfl⟩

theorem exists_items_iff : (∃ items, Walk.items c = .ok items) ↔ c.IsRenderable := by
  simp only [items_eq_ok]
  constructor
  · rintro ⟨_, source, head, bodies, fields, methods, hsource, hhead, hbodies, hfields, hmethods, -⟩
    obtain ⟨hthis, hsuper, hinterfaces⟩ := exists_header_iff.1 ⟨head, hhead⟩
    exact {
      this := hthis
      super := hsuper
      interfaces := hinterfaces
      sourceFile := exists_sourceFile_iff.1 ⟨source, hsource⟩
      fields := fun f hf => exists_field_iff.1 (exists_forall₂_iff.1 ⟨fields, hfields⟩ f hf)
      methods := fun m hm => exists_method_iff.1 (exists_forall₂_iff.1 ⟨methods, hmethods⟩ m hm)
      locals := exists_bodies_iff.1 ⟨bodies, hbodies⟩ }
  · intro h
    obtain ⟨source, hsource⟩ := exists_sourceFile_iff.2 h.sourceFile
    obtain ⟨head, hhead⟩ := exists_header_iff.2 ⟨h.this, h.super, h.interfaces⟩
    obtain ⟨bodies, hbodies⟩ := exists_bodies_iff.2 h.locals
    obtain ⟨fields, hfields⟩ := exists_forall₂_iff.2 fun f hf => exists_field_iff.2 (h.fields f hf)
    obtain ⟨methods, hmethods⟩ := exists_forall₂_iff.2 fun m hm => exists_method_iff.2 (h.methods m hm)
    exact ⟨_, source, head, bodies, fields, methods, hsource, hhead, hbodies, hfields, hmethods, rfl⟩

end Walk

/-- A class is rendered exactly when it has what its rendition needs. -/
theorem exists_render_iff {links : Linker} {c : ClassModel} :
    (∃ r, render links c = .ok r) ↔ c.IsRenderable := by
  rw [← Walk.exists_items_iff]
  unfold render
  simp only [bind_eq_ok, pure_eq_ok]
  constructor
  · rintro ⟨_, items, hitems, -⟩
    exact ⟨items, hitems⟩
  · rintro ⟨items, hitems⟩
    exact ⟨_, items, hitems, rfl⟩

/-! ### Source files of classes that were read -/

/-- The attributes of a class that was read have the contents that go with their names. -/
theorem exists_sourceFile_of_decode {input : Input} {c : ClassModel} {rest : Bytes}
    (h : decode input = .ok (c, rest)) {a : Attribute} (ha : c.attribute? "SourceFile" = some a) :
    ∃ i, a.sourceFile? = some i := by
  obtain ⟨front, -, hlayout⟩ := (decode_iff_layout ..).1 h
  obtain ⟨_, _, _, _, _, _, -, -, -, -, -, -, hattributes⟩ := hlayout
  obtain ⟨_, -, hcontents⟩ := hattributes.exists_of_mem (List.mem_of_find?_eq_some ha)
  have hname := Attribute.utf8?_of_find? (by decide) ha
  rcases hcontents with ⟨text, body, htext, hbody, hspelled⟩ | ⟨hother, -⟩
  · have hsame := Option.some.inj (hname.symm.trans htext)
    generalize a.info = info at hspelled
    cases hspelled with
    | sourceFile i => exact ⟨i, by rw [Attribute.sourceFile?, hbody]⟩
    | code | exceptions | parameters => exact absurd hsame (by decide)
  · exact absurd (by decide) (hother _ hname)

/-- **A class that was read from a file is rendered exactly when it has what its rendition needs.**
Each failure is one of a malformed model, and none wraps the error of a source file that was not
decoded, as the attribute that names it always is. -/
theorem decode_renders_iff {input : Input} {c : ClassModel} {rest : Bytes} (h : decode input = .ok (c, rest))
    (links : Linker) :
    ((∃ r, render links c = .ok r) ↔ c.IsRenderable) ∧
    (∀ e, render links c = .error e →
      e.kind = .malformedModel ∧ ModelFault.sourceFile.error ∉ e.chain) ∧
    ∀ a, c.attribute? "SourceFile" = some a → ∃ i, a.sourceFile? = some i := by
  have hsource : ∀ a, c.attribute? "SourceFile" = some a → ∃ i, a.sourceFile? = some i :=
    fun a ha => exists_sourceFile_of_decode h ha
  have hfails : Fails (· ≠ .sourceFile) (render links c) :=
    (Walk.items_fails (fun _ h => h) (.inr hsource)).bind fun items => .ok _
  exact ⟨exists_render_iff, fun e he => ⟨(hfails e he).kind, (hfails e he).not_mem_chain⟩, hsource⟩

/-- A class whose bad indices are not read: a parameter too many, a second source file and the
descriptor of a receiver. -/
def laxFile : Bytes :=
  [0xCA, 0xFE, 0xBA, 0xBE, 0, 0, 0, 52, 0, 11,
   1, 0, 1, 65, 7, 0, 1, 1, 0, 1, 109, 1, 0, 3, 40, 41, 86, 1, 0, 10, 83, 111, 117, 114, 99, 101, 70, 105, 108, 101,
   1, 0, 4, 67, 111, 100, 101, 1, 0, 18, 76, 111, 99, 97, 108, 86, 97, 114, 105, 97, 98, 108, 101, 84, 97, 98, 108, 101,
   1, 0, 4, 116, 104, 105, 115, 1, 0, 16, 77, 101, 116, 104, 111, 100, 80, 97, 114, 97, 109, 101, 116, 101, 114, 115,
   1, 0, 6, 65, 46, 106, 97, 118, 97,
   0, 0, 0, 2, 0, 0, 0, 0, 0, 0, 0, 1, 0, 0, 0, 3, 0, 4, 0, 2, 0, 9, 0, 0, 0, 5, 1, 0, 99, 0, 0,
   0, 6, 0, 0, 0, 30, 0, 0, 0, 0, 0, 0, 0, 0, 0, 0, 0, 1, 0, 7, 0, 0, 0, 12, 0, 1, 0, 0, 0, 0, 0, 8, 0, 1, 0, 0,
   0, 2, 0, 5, 0, 0, 0, 2, 0, 10, 0, 5, 0, 0, 0, 2, 3, 231]

def laxClass : ClassModel where
  minor := 0
  major := 52
  pool := ⟨#[some (.utf8 "A"), some (.classRef 1), some (.utf8 "m"), some (.utf8 "()V"), some (.utf8 "SourceFile"),
    some (.utf8 "Code"), some (.utf8 "LocalVariableTable"), some (.utf8 "this"), some (.utf8 "MethodParameters"),
    some (.utf8 "A.java")]⟩
  access := 0
  this := 2
  super := 0
  interfaces := []
  fields := []
  methods := [⟨0, 3, 4, [⟨9, [1, 0, 99, 0, 0], some (.parameters [⟨99, 0⟩])⟩,
    ⟨6, [0, 0, 0, 0, 0, 0, 0, 0, 0, 0, 0, 1, 0, 7, 0, 0, 0, 12, 0, 1, 0, 0, 0, 0, 0, 8, 0, 1, 0, 0],
      some (.code ⟨0, 0, [], [], [⟨7, [0, 1, 0, 0, 0, 0, 0, 8, 0, 1, 0, 0], some [⟨0, 0, 8, 1, 0⟩]⟩]⟩)⟩]⟩]
  attributes := [⟨5, [0, 10], some (.sourceFile 10)⟩, ⟨5, [3, 231], some (.sourceFile 999)⟩]

def laxRendition : Rendition where
  text := "<a href=\"/s?path=A.java\">A.java</a>\n<a class=\"d\" name=\"A\" href=\"/s?defs=A\">A</a> \x7b\n" ++
    "\tvoid <a class=\"d\" name=\"m\" href=\"/s?defs=m\">m</a>()\n\x7d\n"
  definitions := ["A.java", "A", "m"]
  references := ["A.java", "A", "m"]
  marks := ⟨#[true, true, true, true, true, true, false, false, true, true, true]⟩

theorem laxFile_renders : decode ⟨laxFile, .finished⟩ = .ok (laxClass, []) ∧
    render ⟨"/s?"⟩ laxClass = .ok laxRendition ∧ laxClass.IsRenderable := by
  have hdecode : decode ⟨laxFile, .finished⟩ = .ok (laxClass, []) := by decide +kernel
  have hrender : render ⟨"/s?"⟩ laxClass = .ok laxRendition := by decide +kernel
  exact ⟨hdecode, hrender, (decode_renders_iff hdecode ⟨"/s?"⟩).1.1 ⟨_, hrender⟩⟩

end ClassAtlas.Xref
