import ClassAtlas.Proofs.Xref.Renderable

/-! A class without its receivers.

The receiver of a method has a row in a table of local variables, under the name `this`. A class from
whose tables these rows are taken (`ClassModel.dropReceivers`) has the rows of its other variables, in
their order, and all else unchanged; so if the class can be rendered, it can be without them. -/
namespace ClassAtlas.ClassFile

/-- The row is not that of a receiver. -/
def Local.isOrdinary (p : Pool) (l : Local) : Bool := p.utf8? l.name ≠ some "this"

def Code.dropReceivers (p : Pool) (code : Code) : Code :=
  { code with attributes := code.attributes.map fun a =>
      { a with locals := a.locals.map (List.filter (Local.isOrdinary p)) } }

def Body.dropReceivers (p : Pool) : Body → Body
  | code c => code (c.dropReceivers p)
  | sourceFile i => sourceFile i
  | exceptions classes => exceptions classes
  | parameters rows => parameters rows

def Attribute.dropReceivers (p : Pool) (a : Attribute) : Attribute :=
  { a with body := a.body.map (Body.dropReceivers p) }

def Member.dropReceivers (p : Pool) (m : Member) : Member :=
  { m with attributes := m.attributes.map (Attribute.dropReceivers p) }

/-- The class without the rows of receivers in the tables of its own and its methods' code. -/
def ClassModel.dropReceivers (c : ClassModel) : ClassModel :=
  { c with
    attributes := c.attributes.map (Attribute.dropReceivers c.pool)
    methods := c.methods.map (Member.dropReceivers c.pool) }

/-! ### Attributes -/

section Attributes
variable {p : Pool} {a : Attribute} {attributes : List Attribute}

theorem Code.localTables_dropReceivers (code : Code) :
    (code.dropReceivers p).localTables = code.localTables.map (List.filter (Local.isOrdinary p)) := by
  unfold localTables dropReceivers
  rw [List.filterMap_map, List.map_filterMap]
  rfl

theorem Attribute.code?_dropReceivers : (a.dropReceivers p).code? = a.code?.map (Code.dropReceivers p) := by
  unfold code? dropReceivers
  rcases a.body with _ | body
  · rfl
  · cases body <;> rfl

/-- Contents that are not code stay as they are. -/
theorem Attribute.contents_dropReceivers (p : Pool) (a : Attribute) :
    (a.dropReceivers p).sourceFile? = a.sourceFile? ∧ (a.dropReceivers p).exceptions? = a.exceptions? ∧
      (a.dropReceivers p).parameters? = a.parameters? := by
  unfold sourceFile? exceptions? parameters? dropReceivers
  rcases a.body with _ | body
  · exact ⟨rfl, rfl, rfl⟩
  · cases body <;> exact ⟨rfl, rfl, rfl⟩

/-- The first attribute of a name stays where it is. -/
theorem Attribute.find?_dropReceivers (name : String) :
    Attribute.find? p name (attributes.map (Attribute.dropReceivers p)) =
      (Attribute.find? p name attributes).map (Attribute.dropReceivers p) :=
  List.find?_map

/-- What is read from the first attribute of a name, unless it is a row of a receiver. -/
theorem Attribute.find?_bind_dropReceivers {β : Type} {f : Attribute → Option β}
    (hf : ∀ a, f (a.dropReceivers p) = f a) (name : String) :
    (Attribute.find? p name (attributes.map (Attribute.dropReceivers p))).bind f =
      (Attribute.find? p name attributes).bind f := by
  rw [find?_dropReceivers, Option.bind_map]
  congr 1
  funext a
  exact hf a

/-- The rows that are left, in their order. -/
theorem localRows_dropReceivers :
    localRows (attributes.map (Attribute.dropReceivers p)) =
      (localRows attributes).filter (Local.isOrdinary p) := by
  have hcodes : (attributes.map (Attribute.dropReceivers p)).filterMap (·.code?) =
      (attributes.filterMap (·.code?)).map (Code.dropReceivers p) := by
    rw [List.filterMap_map, List.map_filterMap]
    congr 1
    funext a
    exact Attribute.code?_dropReceivers
  rw [localRows, localRows, hcodes, List.flatMap_map, List.filter_flatMap]
  congr 1
  funext code
  rw [Code.localTables_dropReceivers, List.filter_flatten]

theorem exceptions_dropReceivers :
    (attributes.map (Attribute.dropReceivers p)).filterMap (·.exceptions?) =
      attributes.filterMap (·.exceptions?) := by
  rw [List.filterMap_map]
  congr 1
  funext a
  exact (a.contents_dropReceivers p).2.1

end Attributes

theorem recordedRows_dropReceivers {p : Pool} {m : Member} (count : Nat) :
    Xref.Walk.recordedRows p (m.dropReceivers p) count = Xref.Walk.recordedRows p m count := by
  unfold Xref.Walk.recordedRows Member.dropReceivers
  rw [Attribute.find?_bind_dropReceivers fun a => (a.contents_dropReceivers p).2.2]

theorem ClassModel.sourceFile?_dropReceivers (c : ClassModel) : c.dropReceivers.sourceFile? = c.sourceFile? := by
  unfold sourceFile? attribute? dropReceivers
  rw [Attribute.find?_bind_dropReceivers fun a => (a.contents_dropReceivers c.pool).1]

/-! ### What a rendition needs -/

theorem IsReadable.dropReceivers {p : Pool} {attributes : List Attribute}
    (h : ∀ l ∈ localRows attributes, l.IsReadable p) :
    ∀ l ∈ localRows (attributes.map (Attribute.dropReceivers p)), l.IsReadable p := by
  intro l hl
  rw [localRows_dropReceivers] at hl
  exact h l (List.mem_of_mem_filter hl)

theorem Member.IsMethod.dropReceivers {p : Pool} {m : Member} (h : m.IsMethod p) :
    (m.dropReceivers p).IsMethod p where
  name := h.name
  descriptor := by
    obtain ⟨text, htext, t, ht, hparameters⟩ := h.descriptor
    refine ⟨text, htext, t, ht, fun rows hrows => hparameters rows ?_⟩
    rwa [recordedRows_dropReceivers] at hrows
  exceptions := by
    intro classes hclasses
    exact h.exceptions classes (exceptions_dropReceivers (p := p) ▸ hclasses)
  locals := IsReadable.dropReceivers h.locals

theorem ClassModel.IsRenderable.dropReceivers {c : ClassModel} (h : c.IsRenderable) :
    c.dropReceivers.IsRenderable where
  this := h.this
  super := h.super
  interfaces := h.interfaces
  sourceFile := by
    intro a ha
    have hfound : (c.attribute? "SourceFile").map (Attribute.dropReceivers c.pool) = some a := by
      rw [← ha]
      exact (Attribute.find?_dropReceivers "SourceFile").symm
    obtain ⟨a', ha', rfl⟩ := Option.map_eq_some_iff.1 hfound
    rw [(a'.contents_dropReceivers c.pool).1]
    exact h.sourceFile a' ha'
  fields := h.fields
  methods := by
    intro m hm
    obtain ⟨m', hm', rfl⟩ := List.mem_map.1 hm
    exact (h.methods m' hm').dropReceivers
  locals := IsReadable.dropReceivers h.locals

end ClassAtlas.ClassFile
