import ClassAtlas.Proofs.Success
import ClassAtlas.Xref.Rendition

/-! The rendition does not hang on the layout of the pool.

Two classes are alike when they have the same shape and say the same at each place where one of
them refers to its pool (`ClassModel.Alike`). Where the constants stand, what else the pools hold
and how large they are is left open, and so are slot numbers and all that a rendition does not show.

The walks over two such classes go side by side: a step fails in both or succeeds in both, and what
it yields differs in marks only (`Agree`, `shown`). There is one statement for each part of the walk,
and `render_alike` puts them together. -/
namespace ClassAtlas

/-! ### Two computations side by side -/

/-- Both computations fail, or both succeed with related results. -/
inductive Agree {ε α β : Type} (R : α → β → Prop) : Except ε α → Except ε β → Prop
  | ok {a : α} {b : β} (h : R a b) : Agree R (.ok a) (.ok b)
  | error (e e' : ε) : Agree R (.error e) (.error e')

namespace Agree

variable {ε α β γ δ : Type} {R : α → β → Prop} {S : γ → δ → Prop}

theorem bind {x : Except ε α} {y : Except ε β} {f : α → Except ε γ} {g : β → Except ε δ} (h : Agree R x y)
    (hfg : ∀ a b, R a b → Agree S (f a) (g b)) : Agree S (x >>= f) (y >>= g) := by
  cases h with
  | ok hab => exact hfg _ _ hab
  | error e e' => exact .error e e'

theorem map {x : Except ε α} {y : Except ε β} {f : α → γ} {g : β → δ} (h : Agree R x y)
    (hfg : ∀ a b, R a b → S (f a) (g b)) : Agree S (f <$> x) (g <$> y) := by
  cases h with
  | ok hab => exact .ok (hfg _ _ hab)
  | error e e' => exact .error e e'

theorem mapError {x : Except ε α} {y : Except ε β} (h : Agree R x y) (f g : ε → ε) :
    Agree R (x.mapError f) (y.mapError g) := by
  cases h with
  | ok hab => exact .ok hab
  | error e e' => exact .error (f e) (g e')

theorem mapM {P : γ → δ → Prop} {f : γ → Except ε α} {g : δ → Except ε β} (hfg : ∀ x y, P x y → Agree R (f x) (g y))
    {xs : List γ} {ys : List δ} (h : List.Forall₂ P xs ys) : Agree (List.Forall₂ R) (xs.mapM f) (ys.mapM g) := by
  induction h with
  | nil => exact .ok .nil
  | cons hxy _ ih =>
    rw [List.mapM_cons, List.mapM_cons]
    exact (hfg _ _ hxy).bind fun a b hab => ih.bind fun as bs habs => .ok (.cons hab habs)

end Agree

/-- Elements that are related are so with their numbers. -/
theorem forall₂_numbered {α β : Type} {R : α → β → Prop} {xs : List α} {ys : List β} (h : List.Forall₂ R xs ys)
    (n : Nat) : List.Forall₂ (fun x y => R x.1 y.1 ∧ x.2 = y.2) (xs.zipIdx n) (ys.zipIdx n) := by
  induction h generalizing n with
  | nil => exact .nil
  | cons hxy _ ih => exact .cons ⟨hxy, rfl⟩ (ih (n + 1))

/-! ### Classes that are alike -/

namespace ClassFile

/-- What an index says where zero stands for nothing: nothing, a text, or no answer at all. -/
def Pool.optional (read : Pool → Index → Option String) (p : Pool) (i : Index) : Option (Option String) :=
  if i = 0 then some none else (read p i).map some

section Alike
variable (p p' : Pool)

/-- Two rows name the same variable with the same type. Its range and its slot do not count. -/
structure Local.Alike (l l' : Local) : Prop where
  name : p.utf8? l.name = p'.utf8? l'.name
  descriptor : p.utf8? l.descriptor = p'.utf8? l'.descriptor

/-- Two bodies have tables of the same local variables. -/
def Code.Alike (c c' : Code) : Prop := List.Forall₂ (List.Forall₂ (Local.Alike p p')) c.localTables c'.localTables

/-- Two rows record the same name of a parameter, or both record none. -/
def Parameter.Alike (r r' : Parameter) : Prop := p.optional Pool.utf8? r.name = p'.optional Pool.utf8? r'.name

inductive Body.Alike : Body → Body → Prop
  | code {c c' : Code} (h : c.Alike p p' c') : Alike (.code c) (.code c')
  | sourceFile {i i' : Index} (h : p.utf8? i = p'.utf8? i') : Alike (.sourceFile i) (.sourceFile i')
  | exceptions {is is' : List Index} (h : List.Forall₂ (fun i i' => p.className? i = p'.className? i') is is') :
    Alike (.exceptions is) (.exceptions is')
  | parameters {rows rows' : List Parameter} (h : List.Forall₂ (Parameter.Alike p p') rows rows') :
    Alike (.parameters rows) (.parameters rows')

structure Attribute.Alike (a a' : Attribute) : Prop where
  name : p.utf8? a.name = p'.utf8? a'.name
  body : Option.Rel (Body.Alike p p') a.body a'.body

structure Member.Alike (m m' : Member) : Prop where
  access : m.access = m'.access
  name : p.utf8? m.name = p'.utf8? m'.name
  descriptor : p.utf8? m.descriptor = p'.utf8? m'.descriptor
  attributes : List.Forall₂ (Attribute.Alike p p') m.attributes m'.attributes

end Alike

/-- Two classes of one shape that say the same, each through its own pool. An index that leads to no
text or class of the kind that its place asks for may stand against any other such index, but where
zero stands for nothing it stands against zero only. -/
structure ClassModel.Alike (c c' : ClassModel) : Prop where
  access : c.access = c'.access
  this : c.pool.className? c.this = c'.pool.className? c'.this
  super : c.pool.optional Pool.className? c.super = c'.pool.optional Pool.className? c'.super
  interfaces : List.Forall₂ (fun i i' => c.pool.className? i = c'.pool.className? i') c.interfaces c'.interfaces
  fields : List.Forall₂ (Member.Alike c.pool c'.pool) c.fields c'.fields
  methods : List.Forall₂ (Member.Alike c.pool c'.pool) c.methods c'.methods
  attributes : List.Forall₂ (Attribute.Alike c.pool c'.pool) c.attributes c'.attributes

/-- Zero stands against zero, and an index against one that says the same. -/
theorem Pool.optional_eq {read : Pool → Index → Option String} {p p' : Pool} {i i' : Index}
    (h : p.optional read i = p'.optional read i') :
    i = 0 ∧ i' = 0 ∨ i ≠ 0 ∧ i' ≠ 0 ∧ read p i = read p' i' := by
  unfold Pool.optional at h
  split at h
  · rename_i hi
    split at h
    · rename_i hi'
      exact .inl ⟨hi, hi'⟩
    · cases hread : read p' i' <;> simp [hread] at h
  · rename_i hi
    split at h
    · cases hread : read p i <;> simp [hread] at h
    · rename_i hi'
      exact .inr ⟨hi, hi', Option.map_injective (fun _ _ => Option.some.inj) h⟩

namespace Attribute.Alike

variable {p p' : Pool} {a a' : Attribute}

theorem code? (h : a.Alike p p' a') : Option.Rel (Code.Alike p p') a.code? a'.code? := by
  cases a
  cases a'
  cases h.body with
  | none => exact .none
  | some hbody =>
    cases hbody with
    | code hcode => exact .some hcode
    | _ => exact .none

theorem sourceFile? (h : a.Alike p p' a') :
    Option.Rel (fun i i' => p.utf8? i = p'.utf8? i') a.sourceFile? a'.sourceFile? := by
  cases a
  cases a'
  cases h.body with
  | none => exact .none
  | some hbody =>
    cases hbody with
    | sourceFile hname => exact .some hname
    | _ => exact .none

theorem exceptions? (h : a.Alike p p' a') :
    Option.Rel (List.Forall₂ fun i i' => p.className? i = p'.className? i') a.exceptions? a'.exceptions? := by
  cases a
  cases a'
  cases h.body with
  | none => exact .none
  | some hbody =>
    cases hbody with
    | exceptions hclasses => exact .some hclasses
    | _ => exact .none

theorem parameters? (h : a.Alike p p' a') :
    Option.Rel (List.Forall₂ (Parameter.Alike p p')) a.parameters? a'.parameters? := by
  cases a
  cases a'
  cases h.body with
  | none => exact .none
  | some hbody =>
    cases hbody with
    | parameters hrows => exact .some hrows
    | _ => exact .none

/-- The first attribute of a name is at the same place in both lists. -/
theorem find? {as as' : List Attribute} (h : List.Forall₂ (Attribute.Alike p p') as as') (name : String) :
    Option.Rel (Attribute.Alike p p') (Attribute.find? p name as) (Attribute.find? p' name as') := by
  unfold Attribute.find?
  induction h with
  | nil => exact .none
  | cons ha _ ih =>
    rw [List.find?_cons, List.find?_cons, ha.name]
    split
    · exact .some ha
    · exact ih

end Attribute.Alike
end ClassFile

/-! ### What is shown -/

namespace Xref
open ClassFile

def Item.isShown : Item → Bool
  | .mark _ => false
  | _ => true

/-- The items without the marks. -/
def shown (items : List Item) : List Item := items.filter Item.isShown

@[simp] theorem shown_append (items items' : List Item) : shown (items ++ items') = shown items ++ shown items' :=
  List.filter_append ..

@[simp] theorem shown_cons_mark (i : Index) (items : List Item) : shown (.mark i :: items) = shown items := rfl

theorem shown_flatten {groups groups' : List (List Item)}
    (h : List.Forall₂ (fun g g' => shown g = shown g') groups groups') :
    shown groups.flatten = shown groups'.flatten := by
  induction h with
  | nil => rfl
  | cons hg _ ih => rw [List.flatten_cons, List.flatten_cons, shown_append, shown_append, hg, ih]

theorem shown_marks {α : Type} (f : α → Index) (as : List α) : shown (as.map fun a => .mark (f a)) = [] := by
  induction as with
  | nil => rfl
  | cons a as ih => exact ih

/-- A mark is not written. -/
theorem join_shown (links : Linker) (items : List Item) :
    String.join ((shown items).map (Item.write links)) = String.join (items.map (Item.write links)) := by
  induction items with
  | nil => rfl
  | cons item items ih =>
    rw [List.map_cons, String.join_cons, ← ih]
    cases item with
    | mark i => exact (String.empty_append).symm
    | _ => exact String.join_cons

/-- A mark is no token. -/
theorem filterMap_shown {f : Item → Option String} (hf : ∀ i, f (.mark i) = none) (items : List Item) :
    (shown items).filterMap f = items.filterMap f := by
  unfold shown
  rw [List.filterMap_filter]
  congr 1
  funext item
  cases item with
  | mark i => exact (hf i).symm
  | _ => rfl

/-! ### The walks side by side -/

namespace Walk

variable {α β : Type} {R : α → β → Prop} {p p' : Pool} {i i' : Index}

/-- Two parts of a walk that show the same. -/
abbrev ShowAlike (w w' : Walk (List Item)) : Prop := Agree (fun items items' => shown items = shown items') w w'

/-- Two parts of a walk that yield the same, and show the same on the way. -/
abbrev YieldAlike (w w' : Walk (α × List Item)) : Prop := Agree (fun x y => x.1 = y.1 ∧ shown x.2 = shown y.2) w w'

theorem within_agree {part part' : Part} {w : Walk α} {w' : Walk β} (h : Agree R w w') :
    Agree R (within part w) (within part' w') := h.mapError ..

theorem utf8_agree (h : p.utf8? i = p'.utf8? i') : Agree Eq (utf8 p i) (utf8 p' i') := by
  unfold utf8
  rw [h]
  cases p'.utf8? i' with
  | none => exact .error ..
  | some text => exact .ok rfl

/-- A class is read where it has a name. -/
theorem className_cases (p : Pool) (i : Index) :
    (∃ name n, p.className? i = some name ∧ className p i = .ok (name, [.mark i, .mark n])) ∨
      p.className? i = none ∧ ∃ e, className p i = .error e := by
  unfold Pool.className? className
  cases p.get? i with
  | none => exact .inr ⟨rfl, _, rfl⟩
  | some c =>
    cases c with
    | classRef n =>
      dsimp only [utf8]
      cases p.utf8? n with
      | none => exact .inr ⟨rfl, _, rfl⟩
      | some name => exact .inl ⟨name, n, rfl, rfl⟩
    | _ => exact .inr ⟨rfl, _, rfl⟩

theorem className_agree (h : p.className? i = p'.className? i') : YieldAlike (className p i) (className p' i') := by
  rcases className_cases p i with ⟨name, n, hname, hw⟩ | ⟨hnone, e, hw⟩
  · rcases className_cases p' i' with ⟨name', n', hname', hw'⟩ | ⟨hnone', e', hw'⟩
    · rw [hname, hname', Option.some.injEq] at h
      rw [hw, hw']
      exact .ok ⟨h, rfl⟩
    · rw [hname, hnone'] at h
      cases h
  · rcases className_cases p' i' with ⟨name', n', hname', hw'⟩ | ⟨hnone', e', hw'⟩
    · rw [hnone, hname'] at h
      cases h
    · rw [hw, hw']
      exact .error e e'

theorem classUse_agree (before : String) (h : p.className? i = p'.className? i') :
    ShowAlike (classUse p before i) (classUse p' before i') := by
  refine (className_agree h).bind ?_
  rintro ⟨name, marks⟩ ⟨_, marks'⟩ ⟨rfl, hmarks⟩
  refine .ok ?_
  rw [shown_append, shown_append, hmarks]

theorem localRow_agree {l l' : Local} (h : l.Alike p p' l') : ShowAlike (localRow p l) (localRow p' l') := by
  refine (within_agree (utf8_agree h.name)).bind ?_
  rintro name _ rfl
  refine (within_agree (utf8_agree h.descriptor)).bind ?_
  rintro text _ rfl
  dsimp only
  by_cases hthis : name = "this"
  · rw [if_pos hthis, if_pos hthis]
    exact .ok rfl
  · rw [if_neg hthis, if_neg hthis]
    cases Spelling.type true text with
    | error fault => exact .error ..
    | ok type => exact .ok rfl

theorem locals_agree {code code' : Code} (h : code.Alike p p' code') : ShowAlike (locals p code) (locals p' code') :=
  (Agree.mapM (P := Local.Alike p p') (fun _ _ => localRow_agree) (List.rel_flatten h)).map fun _ _ => shown_flatten

/-- The local variables of all code among some attributes. -/
theorem bodies_agree {as as' : List Attribute} (h : List.Forall₂ (Attribute.Alike p p') as as') :
    Agree (List.Forall₂ fun items items' => shown items = shown items') ((as.filterMap (·.code?)).mapM (locals p))
      ((as'.filterMap (·.code?)).mapM (locals p')) :=
  Agree.mapM (P := Code.Alike p p') (fun _ _ => locals_agree) (List.rel_filterMap (fun _ _ ha => ha.code?) h)

theorem field_agree {f f' : Member} (h : f.Alike p p' f') : ShowAlike (field p f) (field p' f') := by
  refine (utf8_agree h.name).bind ?_
  rintro name _ rfl
  refine (utf8_agree h.descriptor).bind ?_
  rintro text _ rfl
  cases Spelling.type true text with
  | error fault => exact .error ..
  | ok type =>
    refine .ok ?_
    rw [h.access]
    rfl

theorem parameterName_agree {number : Nat} {r r' : Parameter} (h : r.Alike p p' r') :
    Agree Eq (parameterName p number r) (parameterName p' number r') := by
  unfold parameterName
  rcases Pool.optional_eq h with ⟨hzero, hzero'⟩ | ⟨hname, hname', htext⟩
  · rw [if_pos hzero, if_pos hzero']
    exact .ok rfl
  · rw [if_neg hname, if_neg hname']
    exact within_agree (utf8_agree htext)

theorem parameterNames_agree {m m' : Member} (h : m.Alike p p' m') (count : Nat) :
    YieldAlike (parameterNames p m count) (parameterNames p' m' count) := by
  unfold parameterNames
  have hfound := Attribute.Alike.find? h.attributes "MethodParameters"
  generalize Attribute.find? p "MethodParameters" m.attributes = found at hfound ⊢
  generalize Attribute.find? p' "MethodParameters" m'.attributes = found' at hfound ⊢
  cases hfound with
  | none => exact .ok ⟨rfl, rfl⟩
  | @some a a' ha =>
    have hrows := ha.parameters?
    dsimp only
    generalize a.parameters? = rows at hrows ⊢
    generalize a'.parameters? = rows' at hrows ⊢
    cases hrows with
    | none => exact .ok ⟨rfl, rfl⟩
    | @some rows rows' hrows =>
      dsimp only
      rw [hrows.length_eq]
      by_cases hcount : rows'.length = count
      · rw [if_pos hcount, if_pos hcount]
        have hnames := Agree.mapM (f := fun x => parameterName p x.2 x.1) (g := fun x => parameterName p' x.2 x.1)
          (fun x y hxy => by
            rw [hxy.2]
            exact parameterName_agree hxy.1) (forall₂_numbered hrows 0)
        refine hnames.bind fun names names' heq => .ok ⟨?_, ?_⟩
        · rwa [List.forall₂_eq_eq_eq] at heq
        · rw [shown_cons_mark, shown_cons_mark, shown_marks, shown_marks]
      · rw [if_neg hcount, if_neg hcount]
        exact .ok ⟨rfl, rfl⟩

/-- Classes in a row, each after a text that hangs on its number. -/
theorem classUses_agree (part : Nat → Part) (before : Nat → String) {is is' : List Index}
    (h : List.Forall₂ (fun i i' => p.className? i = p'.className? i') is is') :
    Agree (List.Forall₂ fun items items' => shown items = shown items')
      (is.zipIdx.mapM fun (i, number) => within (part number) (classUse p (before number) i))
      (is'.zipIdx.mapM fun (i, number) => within (part number) (classUse p' (before number) i)) := by
  refine Agree.mapM (fun x y hxy => ?_) (forall₂_numbered h 0)
  obtain ⟨hname, hnumber⟩ := hxy
  dsimp only
  rw [hnumber]
  exact within_agree (classUse_agree _ hname)

theorem throws_agree {classes classes' : List Index}
    (h : List.Forall₂ (fun i i' => p.className? i = p'.className? i') classes classes') :
    ShowAlike (throws p classes) (throws p' classes') :=
  (classUses_agree Part.exception (fun number => if number = 0 then " throws " else ", ") h).map
    fun _ _ => shown_flatten

/-- The classes of all exceptions among some attributes. -/
theorem thrown_agree {as as' : List Attribute} (h : List.Forall₂ (Attribute.Alike p p') as as') :
    Agree (List.Forall₂ fun items items' => shown items = shown items')
      ((as.filterMap (·.exceptions?)).mapM (throws p)) ((as'.filterMap (·.exceptions?)).mapM (throws p')) :=
  Agree.mapM (P := List.Forall₂ fun i i' => p.className? i = p'.className? i') (fun _ _ => throws_agree)
    (List.rel_filterMap (fun _ _ ha => ha.exceptions?) h)

theorem method_agree {m m' : Member} (h : m.Alike p p' m') : ShowAlike (method p m) (method p' m') := by
  refine (utf8_agree h.name).bind ?_
  rintro name _ rfl
  refine (utf8_agree h.descriptor).bind ?_
  rintro text _ rfl
  cases Spelling.signature true text with
  | error fault => exact .error ..
  | ok signature =>
    obtain ⟨result, types⟩ := signature
    refine within_agree ((parameterNames_agree h types.length).bind ?_)
    rintro ⟨names, marks⟩ ⟨_, marks'⟩ ⟨rfl, hmarks⟩
    refine (thrown_agree h.attributes).bind fun thrown thrown' hthrown => ?_
    refine (bodies_agree h.attributes).bind fun bodies bodies' hbodies => .ok ?_
    simp only [shown_append, shown_flatten hthrown, shown_flatten hbodies, hmarks, h.access]
    rfl

section Class
variable {c c' : ClassModel} (h : c.Alike c')
include h

theorem sourceFile_agree : ShowAlike (sourceFile c) (sourceFile c') := by
  have hfound := Attribute.Alike.find? h.attributes "SourceFile"
  unfold sourceFile ClassModel.attribute?
  generalize Attribute.find? c.pool "SourceFile" c.attributes = found at hfound ⊢
  generalize Attribute.find? c'.pool "SourceFile" c'.attributes = found' at hfound ⊢
  cases hfound with
  | none => exact .ok rfl
  | @some a a' ha =>
    have hbody := ha.sourceFile?
    dsimp only
    generalize a.sourceFile? = index at hbody ⊢
    generalize a'.sourceFile? = index' at hbody ⊢
    cases hbody with
    | none => exact .error ..
    | some htext =>
      refine (within_agree (utf8_agree htext)).bind ?_
      rintro name _ rfl
      exact .ok rfl

theorem header_agree : ShowAlike (header c) (header c') := by
  have himplemented :=
    classUses_agree Part.interface (fun number => if number = 0 then " implements " else " ") h.interfaces
  refine (within_agree (className_agree h.this)).bind ?_
  rintro ⟨name, marks⟩ ⟨_, marks'⟩ ⟨rfl, hmarks⟩
  dsimp only
  rcases Pool.optional_eq h.super with ⟨hzero, hzero'⟩ | ⟨hsuper, hsuper', hclass⟩
  · rw [if_pos hzero, if_pos hzero']
    refine himplemented.bind fun implemented implemented' himplemented => .ok ?_
    simp only [shown_append, hmarks, shown_flatten himplemented, h.access]
  · rw [if_neg hsuper, if_neg hsuper']
    refine (within_agree (classUse_agree _ hclass)).bind fun extended extended' hextended => ?_
    refine himplemented.bind fun implemented implemented' himplemented => .ok ?_
    simp only [shown_append, hmarks, hextended, shown_flatten himplemented, h.access]

theorem items_agree : ShowAlike (Walk.items c) (Walk.items c') := by
  refine (sourceFile_agree h).bind fun source source' hsource => ?_
  refine (header_agree h).bind fun head head' hhead => ?_
  refine (bodies_agree h.attributes).bind fun bodies bodies' hbodies => ?_
  have hfields := Agree.mapM (f := fun x => within (.field x.2) (field c.pool x.1))
    (g := fun x => within (.field x.2) (field c'.pool x.1))
    (fun _ _ hxy => within_agree (field_agree hxy.1)) (forall₂_numbered h.fields 0)
  refine hfields.bind fun fields fields' hfields => ?_
  have hmethods := Agree.mapM (f := fun x => within (.method x.2) (method c.pool x.1))
    (g := fun x => within (.method x.2) (method c'.pool x.1))
    (fun _ _ hxy => within_agree (method_agree hxy.1)) (forall₂_numbered h.methods 0)
  refine hmethods.bind fun methods methods' hmethods => .ok ?_
  simp only [shown_append, hsource, hhead, shown_flatten hbodies, shown_flatten hfields, shown_flatten hmethods]

end Class
end Walk

/-- Two renditions with the same text and the same tokens. -/
structure Rendition.SameView (r r' : Rendition) : Prop where
  text : r.text = r'.text
  definitions : r.definitions = r'.definitions
  references : r.references = r'.references

/-- **Classes that say the same are rendered the same**, whatever the layout of their pools, or
neither can be rendered. -/
theorem render_alike (links : Linker) {c c' : ClassModel} (h : c.Alike c') :
    Agree Rendition.SameView (render links c) (render links c') := by
  refine (Walk.items_agree h).bind fun items items' heq => .ok ⟨?_, ?_, ?_⟩
  · show String.join _ = String.join _
    rw [← join_shown, heq, join_shown]
  · show items.filterMap _ = items'.filterMap _
    rw [← filterMap_shown (fun _ => rfl), heq, filterMap_shown (fun _ => rfl)]
  · show items.filterMap _ = items'.filterMap _
    rw [← filterMap_shown (fun _ => rfl), heq, filterMap_shown (fun _ => rfl)]

/-- A class with a method that records the name of its parameter and of a local variable. -/
def packedClass : ClassModel where
  minor := 0
  major := 52
  pool := ⟨#[some (.utf8 "A"), some (.classRef 1), some (.utf8 "m"), some (.utf8 "(I)V"),
    some (.utf8 "MethodParameters"), some (.utf8 "Code"), some (.utf8 "x"), some (.utf8 "J")]⟩
  access := 0x21
  this := 2
  super := 0
  interfaces := []
  fields := []
  methods := [⟨1, 3, 4, [⟨5, [], some (.parameters [⟨7, 0⟩])⟩,
    ⟨6, [], some (.code ⟨2, 3, [], [], [⟨7, [], some [⟨0, 1, 7, 8, 1⟩]⟩]⟩)⟩]⟩]
  attributes := []

/-- The same class with its constants in another order, a gap between them, the text `x` in two places
and the local variable in another slot. -/
def scatteredClass : ClassModel where
  minor := 0
  major := 52
  pool := ⟨#[some (.utf8 "J"), some (.utf8 "x"), some (.long 0), none, some (.classRef 7), some (.utf8 "x"),
    some (.utf8 "A"), some (.utf8 "Code"), some (.utf8 "MethodParameters"), some (.utf8 "(I)V"), some (.utf8 "m")]⟩
  access := 0x21
  this := 5
  super := 0
  interfaces := []
  fields := []
  methods := [⟨1, 11, 10, [⟨9, [], some (.parameters [⟨2, 0⟩])⟩,
    ⟨8, [], some (.code ⟨2, 3, [], [], [⟨2, [], some [⟨0, 1, 6, 1, 2⟩]⟩]⟩)⟩]⟩]
  attributes := []

theorem packedClass_alike : packedClass.Alike scatteredClass where
  access := rfl
  this := rfl
  super := rfl
  interfaces := .nil
  fields := .nil
  methods := .cons ⟨rfl, rfl, rfl, .cons ⟨rfl, .some (.parameters (.cons rfl .nil))⟩
    (.cons ⟨rfl, .some (.code (.cons (.cons ⟨rfl, rfl⟩ .nil) .nil))⟩ .nil)⟩ .nil
  attributes := .nil

/-- Both are rendered, and the same. -/
theorem scatteredClass_rendered : (render ⟨"/s?"⟩ scatteredClass).isOk = true ∧
    Agree Rendition.SameView (render ⟨"/s?"⟩ packedClass) (render ⟨"/s?"⟩ scatteredClass) :=
  ⟨by decide +kernel, render_alike ⟨"/s?"⟩ packedClass_alike⟩

end Xref
end ClassAtlas
