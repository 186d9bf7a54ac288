import ClassAtlas.Proofs.Xref.Receivers

/-! The types of values.

Fields, local variables and typed names that are not those of methods hold values, so their types are
written by field descriptors. What is no field descriptor is refused, with one exception: the letter
`V`, by which a method descriptor says that there is no result, is spelled as a type wherever that of a
value is expected. `value_types` says so for the places in a class (`ClassModel.valueDescriptors`) and for
the typed names of a pool. -/
namespace ClassAtlas

/-- The text is read as the descriptor of a field type. -/
def ReadsAsField (text : String) : Prop := ∃ t, FieldType.parse text = .ok t

/-- No field type is written `V`. -/
theorem not_readsAsField_void : ¬ ReadsAsField "V" := by
  have hparse : FieldType.parse "V" = .error (.field "V") := by decide
  rintro ⟨t, ht⟩
  rw [hparse] at ht
  cases ht

theorem isFieldDescriptor_iff {text : String} : IsFieldDescriptor text ↔ ReadsAsField text := by
  unfold ReadsAsField IsFieldDescriptor
  simp only [FieldType.parse_eq_ok, and_comm]

/-- What is spelled as a type. -/
theorem exists_type_iff_reads (short : Bool) {text : String} :
    (∃ s, Spelling.type short text = .ok s) ↔ text = "V" ∨ ReadsAsField text := by
  rw [Spelling.exists_type_iff, isFieldDescriptor_iff]

namespace ClassFile

/-- The descriptors of the local variables among some attributes, without those of receivers. -/
def localDescriptors (p : Pool) (attributes : List Attribute) : List String :=
  ((localRows attributes).filter (Local.isOrdinary p)).map fun l => (p.utf8? l.descriptor).getD ""

/-- The descriptors of the fields and of all local variables but receivers. -/
def ClassModel.valueDescriptors (c : ClassModel) : List String :=
  c.fields.map (·.descriptorText c.pool) ++ localDescriptors c.pool c.attributes ++
    c.methods.flatMap fun m => localDescriptors c.pool m.attributes

/-- The class with one more field, after the others. -/
def ClassModel.withField (c : ClassModel) (f : Member) : ClassModel := { c with fields := c.fields ++ [f] }

theorem Member.isField_iff {p : Pool} {f : Member} {text : String} (htext : p.utf8? f.descriptor = some text) :
    f.IsField p ↔ (∃ name, p.utf8? f.name = some name) ∧ (text = "V" ∨ ReadsAsField text) := by
  rw [← exists_type_iff_reads true]
  constructor
  · intro h
    obtain ⟨name, hname, -⟩ := Pool.hasText_iff.1 h.name
    obtain ⟨text', htext', htype⟩ := Pool.hasText_iff.1 h.descriptor
    obtain rfl : text = text' := Option.some.inj (htext.symm.trans htext')
    exact ⟨⟨name, hname⟩, htype⟩
  · rintro ⟨⟨name, hname⟩, htype⟩
    exact ⟨Pool.hasText_iff.2 ⟨name, hname, trivial⟩, Pool.hasText_iff.2 ⟨text, htext, htype⟩⟩

theorem ClassModel.isRenderable_withField {c : ClassModel} (h : c.IsRenderable) (f : Member) :
    (c.withField f).IsRenderable ↔ f.IsField c.pool := by
  constructor
  · intro hwith
    exact hwith.fields f (List.mem_append_right _ (List.mem_singleton_self f))
  · intro hf
    refine { h with fields := fun g hg => ?_ }
    rcases List.mem_append.1 hg with hg | hg
    · exact h.fields g hg
    · exact List.mem_singleton.1 hg ▸ hf

theorem types_of_locals {p : Pool} {attributes : List Attribute} (h : ∀ l ∈ localRows attributes, l.IsReadable p)
    {text : String} (ht : text ∈ localDescriptors p attributes) : text = "V" ∨ ReadsAsField text := by
  obtain ⟨l, hl, rfl⟩ := List.mem_map.1 ht
  obtain ⟨hrow, hordinary⟩ := List.mem_filter.1 hl
  obtain ⟨name, hname, hdescriptor⟩ := Pool.hasText_iff.1 (h l hrow)
  obtain ⟨text, htext, htype⟩ := Pool.hasText_iff.1 hdescriptor
  have hother : name ≠ "this" := by
    rintro rfl
    simp [Local.isOrdinary, hname] at hordinary
  rw [htext]
  exact (exists_type_iff_reads true).1 (htype hother)

theorem ClassModel.IsRenderable.types {c : ClassModel} (h : c.IsRenderable) {text : String}
    (ht : text ∈ c.valueDescriptors) : text = "V" ∨ ReadsAsField text := by
  simp only [valueDescriptors, List.mem_append, List.mem_map, List.mem_flatMap] at ht
  obtain (⟨f, hf, rfl⟩ | hlocal) | ⟨m, hm, hlocal⟩ := ht
  · obtain ⟨text, htext, htype⟩ := Pool.hasText_iff.1 (h.fields f hf).descriptor
    rw [Member.descriptorText, htext]
    exact (exists_type_iff_reads true).1 htype
  · exact types_of_locals h.locals hlocal
  · exact types_of_locals (h.methods m hm).locals hlocal

end ClassFile

namespace Xref
open ClassFile

/-- What is spelled at an index are the well-formed constants. -/
theorem Resolver.exists_resolve_iff {pool : Pool} {i : Index} {k : Constant} (hk : pool.get? i = some k) (m : Marks) :
    (∃ s, ((resolve pool i).run m).1 = .ok s) ↔ k.IsWellFormed pool := by
  obtain ⟨result, touched, -, hrun, hok, -⟩ := (constant_ends k : Ends 6 (k.IsWellFormed pool) _).mark i
  rw [resolve_eq hk, hrun]
  exact hok

/-- **What is shown as the type of a value is a field descriptor or `V`, which is none.** In a class that is
rendered, the descriptor of each field and local variable is of these two kinds, and a further field is
rendered with it exactly if it has a name and such a descriptor. The same goes for a typed name, unless its
descriptor starts as that of a method. -/
theorem value_types (links : Linker) (pool : Pool) :
    ¬ ReadsAsField "V" ∧
    (∀ c r, render links c = .ok r →
      (∀ text ∈ c.valueDescriptors, text = "V" ∨ ReadsAsField text) ∧
      ∀ f text, c.pool.utf8? f.descriptor = some text → ((∃ r', render links (c.withField f) = .ok r') ↔
        (∃ name, c.pool.utf8? f.name = some name) ∧ (text = "V" ∨ ReadsAsField text))) ∧
    ∀ i n d text m, pool.get? i = some (.nameAndType n d) → pool.utf8? d = some text →
      text.toList.head? ≠ some '(' → ((∃ s, ((Resolver.resolve pool i).run m).1 = .ok s) ↔
        (∃ name, pool.utf8? n = some name) ∧ (text = "V" ∨ ReadsAsField text)) := by
  refine ⟨not_readsAsField_void, fun c r hr => ?_, fun i n d text m hentry htext hvalue => ?_⟩
  · have hrenderable : c.IsRenderable := exists_render_iff.1 ⟨r, hr⟩
    refine ⟨fun text ht => hrenderable.types ht, fun f text htext => ?_⟩
    rw [exists_render_iff, ClassModel.isRenderable_withField hrenderable, Member.isField_iff htext]
  · rw [Resolver.exists_resolve_iff hentry m, ← isFieldDescriptor_iff]
    simp [Constant.IsWellFormed, Pool.hasText_iff, htext, IsMemberType, hvalue]

/-- A class with a field and a local variable of type `V`, and a typed name of that type at index 10. -/
def voidClass : ClassModel where
  minor := 0
  major := 52
  pool := ⟨#[some (.utf8 "A"), some (.classRef 1), some (.utf8 "f"), some (.utf8 "V"), some (.utf8 "m"),
    some (.utf8 "()V"), some (.utf8 "Code"), some (.utf8 "LocalVariableTable"), some (.utf8 "x"),
    some (.nameAndType 3 4)]⟩
  access := 0
  this := 2
  super := 0
  interfaces := []
  fields := [⟨0, 3, 4, []⟩]
  methods := [⟨0, 5, 6, [⟨7, [], some (.code ⟨0, 0, [], [], [⟨8, [], some [⟨0, 0, 9, 4, 0⟩]⟩]⟩)⟩]⟩]
  attributes := []

def voidRendition : Rendition where
  text := "<a href=\"/s?path=&lt;Unknown&gt;\">&lt;Unknown&gt;</a>\n" ++
    "<a class=\"d\" name=\"A\" href=\"/s?defs=A\">A</a> \x7b\n" ++
    "\tvoid <a class=\"d\" name=\"f\" href=\"/s?defs=f\">f</a>\n" ++
    "\tvoid <a class=\"d\" name=\"m\" href=\"/s?defs=m\">m</a>()\n" ++
    "\t\tvoid <a class=\"d\" name=\"x\" href=\"/s?defs=x\">x</a>\n\x7d\n"
  definitions := ["<Unknown>", "A", "f", "m", "x"]
  references := ["<Unknown>", "A", "f", "m", "x"]
  marks := ⟨#[true, true, true, true, true, true, true, false, false, true, false]⟩

/-- The field, the variable and the typed name are shown with a type that is that of no value. -/
theorem voidClass_types :
    render ⟨"/s?"⟩ voidClass = .ok voidRendition ∧ voidClass.valueDescriptors = ["V", "V"] ∧ ¬ ReadsAsField "V" ∧
    (∃ r, render ⟨"/s?"⟩ (voidClass.withField ⟨0, 9, 4, []⟩) = .ok r) ∧
    ∃ s, ((Resolver.resolve voidClass.pool 10).run (.none 11)).1 = .ok s := by
  have hrender : render ⟨"/s?"⟩ voidClass = .ok voidRendition := by decide +kernel
  obtain ⟨hvoid, hclass, hname⟩ := value_types ⟨"/s?"⟩ voidClass.pool
  refine ⟨hrender, by decide +kernel, hvoid, ?_, ?_⟩
  · exact ((hclass _ _ hrender).2 ⟨0, 9, 4, []⟩ "V" (by decide)).2 ⟨⟨"x", by decide⟩, .inl rfl⟩
  · exact (hname 10 3 4 "V" _ (by decide) (by decide) (by decide)).2 ⟨⟨"f", by decide⟩, .inl rfl⟩

end Xref
end ClassAtlas
