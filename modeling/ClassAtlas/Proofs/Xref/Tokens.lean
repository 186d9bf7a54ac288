import ClassAtlas.Proofs.Xref.Receivers
import ClassAtlas.Proofs.Xref.Surfaced

/-! The tokens of a rendition.

A rendition keeps two lists of names: those that it defines, and those that it mentions at all. Both
come from one list of tokens, each of which says whether its name is defined where it stands or only
used there (`ClassModel.tokens`), and this list is read off the class without a walk. So the first
list is the second with the uses left out.

What the header, a field, a method and a local variable contribute is stated for each part of the
walk, and `render_tokens` puts it together. A receiver contributes nothing: the class without its
receivers has the same tokens (`ClassModel.dropReceivers`). -/
namespace ClassAtlas.Xref
open ClassFile

/-- A name in a rendition, defined where it stands or only used there. -/
inductive Token where
  | defined (name : String)
  | used (name : String)
deriving Repr, DecidableEq

namespace Token

def name : Token → String
  | defined name | used name => name

def defined? : Token → Option String
  | defined name => some name
  | used _ => none

def used? : Token → Option String
  | defined _ => none
  | used name => some name

theorem filterMap_defined_sublist (ts : List Token) : (ts.filterMap defined?).Sublist (ts.map name) := by
  induction ts with
  | nil => exact .slnil
  | cons t ts ih =>
    cases t with
    | defined name => exact ih.cons_cons name
    | used name => exact ih.cons name

end Token

def Item.token? : Item → Option Token
  | defines name => some (.defined name)
  | uses name => some (.used name)
  | _ => none

theorem filterMap_definition (items : List Item) :
    items.filterMap Item.definition? = (items.filterMap Item.token?).filterMap Token.defined? := by
  rw [List.filterMap_filterMap]
  congr 1
  funext item
  cases item <;> rfl

theorem filterMap_reference (items : List Item) :
    items.filterMap Item.reference? = (items.filterMap Item.token?).map Token.name := by
  rw [List.map_filterMap]
  congr 1
  funext item
  cases item <;> rfl

/-! ### Names at the last dot -/

/-- The name, cut at its last dot. A name without a dot is simple, and its package is empty. -/
def IsCut (name package simple : String) : Prop :=
  '.' ∉ simple.toList ∧ (name = package ++ "." ++ simple ∨ package = "" ∧ name = simple)

theorem isCut_splitName (name : String) : IsCut name (Walk.splitName name).1 (Walk.splitName name).2 := by
  have hsplit := List.takeWhile_append_dropWhile (p := (· != '.')) (l := name.toList.reverse)
  have hhead := List.head?_dropWhile_not (· != '.') name.toList.reverse
  have hsimple : '.' ∉ (name.toList.reverse.takeWhile (· != '.')).reverse := by
    intro hmem
    have hnot := List.all_eq_true.1 List.all_takeWhile _ (List.mem_reverse.1 hmem)
    simp at hnot
  refine ⟨by simpa [Walk.splitName] using hsimple, ?_⟩
  cases hdrop : name.toList.reverse.dropWhile (· != '.') with
  | nil =>
    rw [hdrop, List.append_nil] at hsplit
    refine .inr ⟨by simp [Walk.splitName, hdrop], ?_⟩
    simp [Walk.splitName, hsplit]
  | cons dot rest =>
    obtain rfl : dot = '.' := by simpa [hdrop] using hhead
    rw [hdrop] at hsplit
    have hname := congrArg List.reverse hsplit
    refine .inl (String.toList_inj.1 ?_)
    simpa [Walk.splitName, hdrop] using hname.symm

end ClassAtlas.Xref

/-! ### The names of a class -/

namespace ClassAtlas.ClassFile
open Xref

/-- The class name at an index, in its short form. -/
def Pool.shortName (p : Pool) (i : Index) : String := Spelling.className true ((p.className? i).getD "")

/-- The names of the local variables among some attributes, without those of receivers. -/
def localNames (p : Pool) (attributes : List Attribute) : List String :=
  (localRows attributes).filterMap fun l => (p.utf8? l.name).filter (· ≠ "this")

/-- The name that a row records for a parameter. Index zero and the empty text record none. -/
def Parameter.name? (p : Pool) (row : Parameter) : Option String :=
  if row.name = 0 then none else (p.utf8? row.name).filter (· ≠ "")

namespace Member

/-- The types of the parameters, as the descriptor has them. -/
def parameterTypes (p : Pool) (m : Member) : List String :=
  match Spelling.signature true (m.descriptorText p) with
  | .ok (_, types) => types
  | .error _ => []

/-- The types and names of the parameters that have a name. Names are recorded by the first
`MethodParameters` attribute, if it has a row for each parameter. -/
def namedParameters (p : Pool) (m : Member) : List (String × String) :=
  let types := m.parameterTypes p
  (types.zip ((Walk.recordedRows p m types.length).getD [])).filterMap fun x => (x.2.name? p).map (x.1, ·)

/-- The names of the classes in all `Exceptions` attributes. -/
def thrownNames (p : Pool) (m : Member) : List String :=
  (m.attributes.filterMap (·.exceptions?)).flatten.map p.shortName

def tokens (p : Pool) (m : Member) : List Token :=
  .defined (m.nameText p) :: (m.namedParameters p).flatMap (fun x => [.used x.1, .defined x.2]) ++
    (m.thrownNames p).map .used ++ (localNames p m.attributes).map .defined

end Member

namespace ClassModel

variable (c : ClassModel)

/-- The name of the source file, or what stands for it. -/
def sourceName : String := c.sourceFile?.getD Walk.unknownSource

def packageName : String := (Walk.splitName (Spelling.dotted c.name)).1

def simpleName : String := (Walk.splitName (Spelling.dotted c.name)).2

/-- The superclass, if there is one, and the interfaces. -/
def parents : List Index := (if c.super = 0 then [] else [c.super]) ++ c.interfaces

/-- All tokens of a class, in file order. -/
def tokens : List Token :=
  .defined c.sourceName :: (if c.packageName = "" then [] else [.defined c.packageName]) ++
    [.defined c.simpleName] ++ c.parents.map (fun i => .used (c.pool.shortName i)) ++
    (localNames c.pool c.attributes).map .defined ++ c.fields.map (fun f => .defined (f.nameText c.pool)) ++
    c.methods.flatMap (·.tokens c.pool)

/-- The names that a class defines. -/
def definedNames : List String :=
  c.sourceName :: (if c.packageName = "" then [] else [c.packageName]) ++ [c.simpleName] ++
    localNames c.pool c.attributes ++ c.fields.map (·.nameText c.pool) ++
    c.methods.flatMap fun m => m.nameText c.pool :: (m.namedParameters c.pool).map (·.2) ++
      localNames c.pool m.attributes

/-- The names that a class uses beside those that it defines. -/
def usedNames : List String :=
  c.parents.map c.pool.shortName ++
    c.methods.flatMap fun m => (m.namedParameters c.pool).map (·.1) ++ m.thrownNames c.pool

end ClassModel

/-! ### Defined and used names -/

theorem Member.defined_tokens (p : Pool) (m : Member) :
    (m.tokens p).filterMap Token.defined? =
      m.nameText p :: (m.namedParameters p).map (·.2) ++ localNames p m.attributes := by
  have hparameters : ((m.namedParameters p).flatMap fun x => [.used x.1, .defined x.2]).filterMap Token.defined? =
      (m.namedParameters p).map (·.2) := by
    rw [List.filterMap_flatMap, List.map_eq_flatMap]
    rfl
  simp [tokens, hparameters, Token.defined?, Function.comp_def]

theorem Member.used_tokens (p : Pool) (m : Member) :
    (m.tokens p).filterMap Token.used? = (m.namedParameters p).map (·.1) ++ m.thrownNames p := by
  have hparameters : ((m.namedParameters p).flatMap fun x => [.used x.1, .defined x.2]).filterMap Token.used? =
      (m.namedParameters p).map (·.1) := by
    rw [List.filterMap_flatMap, List.map_eq_flatMap]
    rfl
  simp [tokens, hparameters, Token.used?, Function.comp_def, List.filterMap_cons]

theorem ClassModel.defined_tokens (c : ClassModel) : c.tokens.filterMap Token.defined? = c.definedNames := by
  simp [tokens, definedNames, Token.defined?, Function.comp_def, List.filterMap_flatMap, Member.defined_tokens,
    apply_ite (List.filterMap Token.defined?)]

theorem ClassModel.used_tokens (c : ClassModel) : c.tokens.filterMap Token.used? = c.usedNames := by
  simp [tokens, usedNames, Token.used?, Function.comp_def, List.filterMap_flatMap, Member.used_tokens,
    apply_ite (List.filterMap Token.used?), List.filterMap_cons]

/-! ### Receivers -/

theorem localNames_dropReceivers (p : Pool) (attributes : List Attribute) :
    localNames p (attributes.map (Attribute.dropReceivers p)) = localNames p attributes := by
  rw [localNames, localNames, localRows_dropReceivers, List.filterMap_filter]
  congr 1
  funext l
  unfold Local.isOrdinary
  by_cases hthis : p.utf8? l.name = some "this"
  · rw [hthis]
    rfl
  · simp [hthis]

theorem Member.tokens_dropReceivers (p : Pool) (m : Member) : (m.dropReceivers p).tokens p = m.tokens p := by
  have hparameters : (m.dropReceivers p).namedParameters p = m.namedParameters p := by
    unfold namedParameters
    dsimp only
    rw [recordedRows_dropReceivers]
    rfl
  have hthrown : (m.dropReceivers p).thrownNames p = m.thrownNames p := by
    unfold thrownNames dropReceivers
    rw [exceptions_dropReceivers]
  have hlocals : localNames p (m.dropReceivers p).attributes = localNames p m.attributes :=
    localNames_dropReceivers p m.attributes
  unfold tokens
  rw [hparameters, hthrown, hlocals]
  rfl

/-- Without its receivers, a class has the same tokens. -/
theorem ClassModel.tokens_dropReceivers (c : ClassModel) : c.dropReceivers.tokens = c.tokens := by
  have hsource : c.dropReceivers.sourceName = c.sourceName := by
    rw [sourceName, sourceName, sourceFile?_dropReceivers]
  have hpool : c.dropReceivers.pool = c.pool := rfl
  have hlocals : localNames c.pool c.dropReceivers.attributes = localNames c.pool c.attributes :=
    localNames_dropReceivers c.pool c.attributes
  have hmethods : c.dropReceivers.methods.flatMap (·.tokens c.pool) = c.methods.flatMap (·.tokens c.pool) := by
    unfold dropReceivers
    rw [List.flatMap_map]
    congr 1
    funext m
    exact m.tokens_dropReceivers c.pool
  unfold tokens
  rw [hsource, hpool, hlocals, hmethods]
  rfl

end ClassAtlas.ClassFile

namespace ClassAtlas.Xref
open ClassFile

/-! ### The parts of a class -/

namespace Walk

theorem modifiers_tokens (access : AccessFlags) (carrier : AccessFlags.Carrier) :
    (modifiers access carrier).filterMap Item.token? = [] := by
  unfold modifiers
  dsimp only
  split <;> rfl

theorem packageLine_tokens (package : String) :
    (packageLine package).filterMap Item.token? = if package = "" then [] else [.defined package] := by
  unfold packageLine
  split <;> rfl

theorem marks_tokens {α : Type} (f : α → Index) (as : List α) :
    (as.map fun a => Item.mark (f a)).filterMap Item.token? = [] := by
  rw [List.filterMap_map]
  exact List.filterMap_eq_nil_iff.2 fun _ _ => rfl

variable {pool : Pool} {items : List Item}

theorem className_tokens {i : Index} {name : String} (h : className pool i = .ok (name, items)) :
    items.filterMap Item.token? = [] ∧ pool.className? i = some name := by
  obtain ⟨n, hi, hname, rfl⟩ := className_eq_ok.1 h
  refine ⟨rfl, ?_⟩
  rw [Pool.className?, hi]
  exact hname

theorem classUse_tokens {before : String} {i : Index} (h : classUse pool before i = .ok items) :
    items.filterMap Item.token? = [.used (pool.shortName i)] := by
  obtain ⟨name, marks, hname, rfl⟩ := classUse_eq_ok.1 h
  obtain ⟨hmarks, hclass⟩ := className_tokens hname
  rw [List.filterMap_append, hmarks, Pool.shortName, hclass]
  rfl

theorem classUses_tokens (before : Nat → String) {classes : List Index} {groups : List (List Item)}
    (h : List.Forall₂ (fun x g => classUse pool (before x.2) x.1 = .ok g) classes.zipIdx groups) :
    groups.flatten.filterMap Item.token? = classes.map fun i => .used (pool.shortName i) := by
  rw [List.map_eq_flatMap]
  exact filterMap_groups (forall₂_zipIdx.1 (h.imp fun _ _ => classUse_tokens))

theorem localRow_tokens {l : Local} (h : localRow pool l = .ok items) :
    items.filterMap Item.token? = (((pool.utf8? l.name).filter (· ≠ "this")).map Token.defined).toList := by
  obtain ⟨name, text, hname, -, ⟨rfl, rfl⟩ | ⟨hthis, type, -, rfl⟩⟩ := localRow_eq_ok.1 h
  · rw [hname]
    rfl
  · rw [hname, Option.filter_some_pos (by simpa using hthis)]
    rfl

theorem locals_tokens {code : Code} (h : locals pool code = .ok items) :
    items.filterMap Item.token? = (code.localTables.flatten.filterMap fun l =>
      (pool.utf8? l.name).filter (· ≠ "this")).map .defined := by
  obtain ⟨groups, hgroups, rfl⟩ := locals_eq_ok.1 h
  rw [filterMap_groups (hgroups.imp fun _ _ => localRow_tokens), List.map_filterMap,
    List.filterMap_eq_flatMap_toList]

theorem bodies_tokens {attributes : List Attribute} {bodies : List (List Item)}
    (h : List.Forall₂ (fun code g => locals pool code = .ok g) (attributes.filterMap (·.code?)) bodies) :
    bodies.flatten.filterMap Item.token? = (localNames pool attributes).map .defined := by
  rw [filterMap_groups (h.imp fun _ _ => locals_tokens), localNames, localRows, List.filterMap_flatMap,
    List.map_flatMap]

theorem field_tokens {f : Member} (h : field pool f = .ok items) :
    items.filterMap Item.token? = [.defined (f.nameText pool)] := by
  obtain ⟨name, text, type, hname, -, -, rfl⟩ := field_eq_ok.1 h
  simp only [List.filterMap_append, List.filterMap_cons, List.filterMap_nil, modifiers_tokens, definition,
    Item.token?, List.append_nil, List.nil_append, Member.nameText, hname, Option.getD_some]

/-! ### Parameters -/

/-- The tokens of a parameter: none unless it has a name. -/
theorem parameter_tokens (type name : String) :
    (parameter type name).filterMap Item.token? =
      if name = "" then [] else [.used type, .defined name] := by
  unfold parameter
  split <;> rfl

theorem parameters_tokens (types names : List String) :
    (separated (.text ", ") (List.zipWith parameter types names)).filterMap Item.token? =
      (types.zip names).flatMap fun x => if x.2 = "" then [] else [.used x.1, .defined x.2] := by
  rw [filterMap_separated rfl, ← List.map_uncurry_zip_eq_zipWith, List.flatMap_map]
  congr 1
  funext x
  exact parameter_tokens x.1 x.2

/-- The name that is shown for a row is the recorded one, or empty. -/
theorem Names.eq_getD {row : Parameter} {name : String} (h : Names pool row name) :
    name = (row.name? pool).getD "" := by
  unfold Parameter.name?
  rcases h with ⟨hzero, rfl⟩ | ⟨hne, htext⟩
  · rw [if_pos hzero]
    rfl
  · rw [if_neg hne, htext]
    by_cases hempty : name = ""
    · subst hempty
      rfl
    · rw [Option.filter_some_pos (by simpa using hempty)]
      rfl

theorem Names.ne_empty {row : Parameter} {name : String} (h : row.name? pool = some name) : name ≠ "" := by
  unfold Parameter.name? at h
  split at h
  · cases h
  · simpa using (Option.filter_eq_some_iff.1 h).2

/-- Parameters with the names of their rows have the tokens of those that record one. -/
theorem recorded_tokens {rows : List Parameter} {names : List String} (h : List.Forall₂ (Names pool) rows names)
    (types : List String) :
    ((types.zip names).flatMap fun x => if x.2 = "" then [] else [Token.used x.1, .defined x.2]) =
      ((types.zip rows).filterMap fun x => (x.2.name? pool).map (x.1, ·)).flatMap
        fun x => [.used x.1, .defined x.2] := by
  induction h generalizing types with
  | nil => simp
  | @cons row name rows names hname _ ih =>
    cases types with
    | nil => rfl
    | cons type types =>
      rw [List.zip_cons_cons, List.zip_cons_cons, List.flatMap_cons, ih, List.filterMap_cons]
      have hshown := hname.eq_getD
      dsimp only
      cases hrow : row.name? pool with
      | none =>
        obtain rfl : name = "" := by rwa [hrow] at hshown
        rfl
      | some text =>
        obtain rfl : name = text := by rwa [hrow] at hshown
        rw [if_neg (Names.ne_empty hrow)]
        rfl

/-- Where no names are recorded, all are empty. -/
theorem unrecorded_tokens (types : List String) (n : Nat) :
    ((types.zip (List.replicate n "")).flatMap fun x =>
      if x.2 = "" then [] else [Token.used x.1, .defined x.2]) = [] := by
  refine List.flatMap_eq_nil_iff.2 fun x hx => if_pos ?_
  exact List.eq_of_mem_replicate (List.of_mem_zip hx).2

theorem parameterNames_tokens {m : Member} {names : List String}
    (h : parameterNames pool m (m.parameterTypes pool).length = .ok (names, items)) :
    items.filterMap Item.token? = [] ∧
      (((m.parameterTypes pool).zip names).flatMap fun x => if x.2 = "" then [] else [Token.used x.1, .defined x.2]) =
        (m.namedParameters pool).flatMap fun x => [.used x.1, .defined x.2] := by
  obtain ⟨marks, rfl, hrows⟩ := parameterNames_eq_ok.1 h
  rw [List.filterMap_append, marks_tokens, Member.namedParameters]
  rcases hrows with ⟨hnone, rfl, rfl⟩ | ⟨rows, hrows, hnames, rfl⟩
  · rw [unrecorded_tokens, hnone, Option.getD_none, List.zip_nil_right]
    exact ⟨rfl, rfl⟩
  · rw [recorded_tokens hnames, hrows, marks_tokens]
    exact ⟨rfl, rfl⟩

/-! ### The class -/

theorem throws_tokens {classes : List Index} (h : throws pool classes = .ok items) :
    items.filterMap Item.token? = classes.map fun i => .used (pool.shortName i) := by
  obtain ⟨groups, hgroups, rfl⟩ := throws_eq_ok.1 h
  exact classUses_tokens (fun number => if number = 0 then " throws " else ", ") hgroups

theorem method_tokens {m : Member} (h : method pool m = .ok items) :
    items.filterMap Item.token? = m.tokens pool := by
  obtain ⟨name, text, result, types, names, marks, thrown, bodies, hname, htext, hsignature, hnames, hthrown,
    hbodies, rfl⟩ := method_eq_ok.1 h
  have htypes : types = m.parameterTypes pool := by
    rw [Member.parameterTypes, Member.descriptorText, htext, Option.getD_some, hsignature]
  subst htypes
  obtain ⟨hmarks, hparameters⟩ := parameterNames_tokens hnames
  have hthrows : thrown.flatten.filterMap Item.token? = (m.thrownNames pool).map .used := by
    rw [filterMap_groups (hthrown.imp fun _ _ => throws_tokens), Member.thrownNames, List.map_map,
      ← List.flatMap_id, List.map_flatMap]
    rfl
  simp only [List.filterMap_append, hmarks, modifiers_tokens, parameters_tokens, hparameters, hthrows,
    bodies_tokens hbodies, List.filterMap_cons, List.filterMap_nil, definition, Item.token?, List.append_nil,
    List.nil_append, List.cons_append, Member.tokens, Member.nameText, hname, Option.getD_some]

variable {c : ClassModel}

theorem sourceFile_tokens (h : sourceFile c = .ok items) :
    items.filterMap Item.token? = [.defined c.sourceName] := by
  unfold ClassModel.sourceName ClassModel.sourceFile?
  obtain ⟨name, marks, rfl, ⟨hnone, rfl, rfl⟩ | ⟨a, i, ha, hi, hname, rfl⟩⟩ := sourceFile_eq_ok.1 h
  · rw [hnone]
    rfl
  · rw [ha, Option.bind_some, hi, Option.map_some, hname]
    rfl

theorem dotted_eq (name : String) : Spelling.className false name = Spelling.dotted name := by
  unfold Spelling.className
  simp

theorem header_tokens (h : header c = .ok items) :
    items.filterMap Item.token? =
      (if c.packageName = "" then [] else [.defined c.packageName]) ++ [.defined c.simpleName] ++
        c.parents.map fun i => .used (c.pool.shortName i) := by
  obtain ⟨name, marks, extended, implemented, hname, hsuper, himplemented, rfl⟩ := header_eq_ok.1 h
  obtain ⟨hmarks, hclass⟩ := className_tokens hname
  have hthis : splitName (Spelling.className false name) = (c.packageName, c.simpleName) := by
    rw [dotted_eq, ClassModel.packageName, ClassModel.simpleName, ClassModel.name, hclass]
    rfl
  have hextended : extended.filterMap Item.token? =
      (if c.super = 0 then [] else [c.super]).map fun i => .used (c.pool.shortName i) := by
    rcases hsuper with ⟨hzero, rfl⟩ | ⟨hne, hextended⟩
    · rw [if_pos hzero]
      rfl
    · rw [if_neg hne, classUse_tokens hextended]
      rfl
  have hinterfaces :=
    classUses_tokens (fun number => if number = 0 then " implements " else " ") himplemented
  rw [hthis]
  simp only [List.filterMap_append, hmarks, packageLine_tokens, modifiers_tokens, hextended, hinterfaces,
    List.filterMap_cons, List.filterMap_nil, definition, Item.token?, List.append_nil, List.nil_append,
    ClassModel.parents, List.map_append, List.append_assoc]

theorem items_tokens (h : Walk.items c = .ok items) : items.filterMap Item.token? = c.tokens := by
  obtain ⟨source, head, bodies, fields, methods, hsource, hhead, hbodies, hfields, hmethods, rfl⟩ :=
    items_eq_ok.1 h
  have hf := filterMap_groups (hfields.imp fun _ _ => field_tokens)
  rw [← List.map_eq_flatMap] at hf
  simp only [List.filterMap_append, sourceFile_tokens hsource, header_tokens hhead, bodies_tokens hbodies, hf,
    filterMap_groups (hmethods.imp fun _ _ => method_tokens), ClassModel.tokens, List.append_assoc,
    List.filterMap_cons, List.filterMap_nil, Item.token?, List.append_nil, List.cons_append, List.nil_append]

end Walk

/-- A rendition takes both its lists from the tokens of its class. -/
theorem lists_of_render {links : Linker} {c : ClassModel} {r : Rendition} (h : render links c = .ok r) :
    r.definitions = c.tokens.filterMap Token.defined? ∧ r.references = c.tokens.map Token.name := by
  obtain ⟨items, hitems, hr⟩ := bind_eq_ok.1 h
  obtain rfl := pure_eq_ok.1 hr
  rw [← Walk.items_tokens hitems]
  exact ⟨filterMap_definition items, filterMap_reference items⟩

/-- **A rendition defines the names that its class defines, and mentions between them those that the class
uses.** The package is what stands before the last dot of the class name. Receivers have no part in this:
without them, a class that can be rendered has a rendition with the same names. -/
theorem render_tokens {links : Linker} {c : ClassModel} {r : Rendition} (h : render links c = .ok r) :
    IsCut (Spelling.dotted c.name) c.packageName c.simpleName ∧
    r.definitions = c.definedNames ∧
    r.references = c.tokens.map Token.name ∧
    c.tokens.filterMap Token.defined? = c.definedNames ∧
    c.tokens.filterMap Token.used? = c.usedNames ∧
    r.definitions.Sublist r.references ∧
    ∃ r', render links c.dropReceivers = .ok r' ∧ r'.definitions = r.definitions ∧
      r'.references = r.references := by
  obtain ⟨hdefinitions, hreferences⟩ := lists_of_render h
  have hrenderable : c.IsRenderable := exists_render_iff.1 ⟨r, h⟩
  obtain ⟨r', hr'⟩ : ∃ r', render links c.dropReceivers = .ok r' :=
    exists_render_iff.2 hrenderable.dropReceivers
  obtain ⟨hdefinitions', hreferences'⟩ := lists_of_render hr'
  rw [c.tokens_dropReceivers] at hdefinitions' hreferences'
  refine ⟨isCut_splitName _, hdefinitions.trans c.defined_tokens, hreferences, c.defined_tokens, c.used_tokens, ?_,
    r', hr', hdefinitions'.trans hdefinitions.symm, hreferences'.trans hreferences.symm⟩
  rw [hdefinitions, hreferences]
  exact Token.filterMap_defined_sublist c.tokens

/-- The second parameter of the first method has no name, and the only one that the second method could name
is not in its descriptor; so neither has a token, and neither has the receiver. -/
theorem variedClass_tokens : ∃ r, render ⟨"/s?"⟩ variedClass = .ok r ∧
    r.definitions = ["A.java", "p", "A", "v", "f", "m", "x", "x", "m"] ∧
    r.references = ["A.java", "p", "A", "Object", "Runnable", "v", "f", "m", "int", "x", "java.io.IOException",
      "x", "m"] := by
  obtain ⟨r, hr⟩ := exists_render_variedClass
  obtain ⟨-, hdefinitions, hreferences, -⟩ := render_tokens hr
  refine ⟨r, hr, hdefinitions.trans ?_, hreferences.trans ?_⟩
  · decide +kernel
  · decide +kernel

end ClassAtlas.Xref
