import ClassAtlas.Proofs.Descriptor
import ClassAtlas.Proofs.Text.Escaping
import ClassAtlas.Proofs.Xref.Walk
import Mathlib.Algebra.GroupWithZero.Nat

/-! Angle brackets in rendered text. A link has two of each, and escapes what it shows; all other
text is written as it is. The words and separators of a rendition have no brackets, and no
ampersands, so the ones outside of links are those of the descriptors and parameter names that the
walk spells out (`verbatim`). -/
namespace ClassAtlas.Xref
open ClassFile

def IsBracket (x : Char) : Prop := x = '<' ∨ x = '>'

/-- A character with a meaning in markup. The words and separators of a rendition have none. -/
def IsForeign (x : Char) : Prop := x = '<' ∨ x = '>' ∨ x = '&'

theorem IsBracket.isForeign {x : Char} (h : IsBracket x) : IsForeign x := h.imp_right .inl

/-- How often a character stands in some texts. -/
def tally (x : Char) (texts : List String) : Nat := (texts.map (·.toList.count x)).sum

section Tally

variable {x : Char}

@[simp] theorem tally_nil : tally x [] = 0 := rfl

@[simp] theorem tally_cons (s : String) (texts : List String) :
    tally x (s :: texts) = s.toList.count x + tally x texts := by
  simp [tally]

@[simp] theorem tally_append (texts texts' : List String) :
    tally x (texts ++ texts') = tally x texts + tally x texts' := by
  simp [tally]

theorem tally_eq_zero {texts : List String} : tally x texts = 0 ↔ ∀ s ∈ texts, x ∉ s.toList := by
  induction texts with
  | nil => simp
  | cons s texts ih => simp [List.count_eq_zero, ih]

theorem count_join (texts : List String) : (String.join texts).toList.count x = tally x texts := by
  induction texts with
  | nil => rfl
  | cons s texts ih => rw [String.join_cons, String.toList_append, List.count_append, ih, tally_cons]

theorem count_intercalate {separator : String} (hseparator : separator.toList.count x = 0)
    (texts : List String) : (separator.intercalate texts).toList.count x = tally x texts := by
  induction texts with
  | nil => rfl
  | cons s rest ih =>
    cases rest with
    | nil => simp
    | cons t rest =>
      rw [String.intercalate_cons_cons, String.toList_append, String.toList_append, List.count_append,
        List.count_append, ih, hseparator, tally_cons]
      rfl

end Tally

variable {x : Char}

/-! ### Links -/

theorem count_escape (hx : IsBracket x) (s : String) : (Text.Markup.escape s).toList.count x = 0 := by
  refine List.count_eq_zero.2 (Text.Markup.not_mem_escape ?_ s)
  rcases hx with rfl | rfl <;> simp

theorem count_anchorName (hx : IsBracket x) (kind : LinkKind) (value : String) :
    (Linker.anchorName kind value).toList.count x = 0 := by
  unfold Linker.anchorName
  split
  · simp only [String.toList_append, List.count_append, count_escape hx]
    rcases hx with rfl | rfl <;> decide
  · rfl

/-- A link has two brackets of each kind, whatever it shows and wherever it leads. -/
theorem count_link (hx : IsBracket x) (links : Linker) (kind : LinkKind) (value : String) :
    (links.link kind value).toList.count x = 2 := by
  unfold Linker.link
  simp only [String.toList_append, List.count_append, count_escape hx, count_anchorName hx]
  rcases hx with rfl | rfl <;> decide

/-! ### Types -/

/-- A word without foreign characters. -/
theorem count_word (hx : IsForeign x) {s : String} (hs : '<' ∉ s.toList ∧ '>' ∉ s.toList ∧ '&' ∉ s.toList) :
    s.toList.count x = 0 := by
  rw [List.count_eq_zero]
  rcases hx with rfl | rfl | rfl
  · exact hs.1
  · exact hs.2.1
  · exact hs.2.2

theorem count_dotted (hx : IsForeign x) (name : String) :
    (Spelling.dotted name).toList.count x = name.toList.count x := by
  rw [Spelling.dotted, String.toList_ofList]
  induction name.toList with
  | nil => rfl
  | cons c cs ih =>
    rw [List.map_cons, List.count_cons, List.count_cons, ih]
    by_cases hc : c = '/'
    · subst hc
      rcases hx with rfl | rfl | rfl <;> rfl
    · rw [if_neg hc]

theorem count_className (hx : IsForeign x) (short : Bool) (name : String) :
    (Spelling.className short name).toList.count x = name.toList.count x := by
  unfold Spelling.className
  dsimp only
  split
  · rename_i h
    have hprefix : Spelling.javaLang.toList <+: (Spelling.dotted name).toList := by
      simp only [Bool.and_eq_true, List.isPrefixOf_iff_prefix] at h
      exact h.1.2
    obtain ⟨rest, hrest⟩ := hprefix
    rw [String.toList_ofList, ← count_dotted hx name, ← hrest, List.drop_left, List.count_append,
      count_word hx (by decide), Nat.zero_add]
  · rw [String.ofList_toList, count_dotted hx]

/-- Spelling a type neither adds foreign characters to its descriptor nor takes any away. -/
theorem count_fieldType (hx : IsForeign x) (short : Bool) (t : FieldType) :
    (Spelling.fieldType short t).toList.count x = t.descriptor.count x := by
  have hpairs : tally x (List.replicate t.depth "[]") = 0 := by
    rw [tally_eq_zero]
    intro s hs
    rw [List.eq_of_mem_replicate hs]
    rcases hx with rfl | rfl | rfl <;> decide
  have hdepth : (List.replicate t.depth '[').count x = 0 := by
    rw [List.count_eq_zero]
    intro hmem
    have heq := List.eq_of_mem_replicate hmem
    rcases hx with rfl | rfl | rfl <;> cases heq
  unfold Spelling.fieldType FieldType.descriptor
  rw [String.toList_append, List.count_append, List.count_append, count_join, hpairs, hdepth]
  cases t.element with
  | primitive p =>
    show p.name.toList.count x + 0 = 0 + [p.letter].count x
    rcases hx with rfl | rfl | rfl <;> cases p <;> decide
  | object name =>
    have hL : 'L' ≠ x := by rcases hx with rfl | rfl | rfl <;> decide
    have hsemicolon : List.count x [';'] = 0 := by rcases hx with rfl | rfl | rfl <;> decide
    simp [count_className hx, hL, hsemicolon]

theorem count_type (hx : IsForeign x) {short : Bool} {text s : String} (h : Spelling.type short text = .ok s) :
    s.toList.count x = text.toList.count x := by
  unfold Spelling.type at h
  split at h
  · rename_i hvoid
    obtain rfl := Except.ok.inj h
    rw [hvoid, count_word hx (by decide), count_word hx (by decide)]
  · obtain ⟨t, ht, rfl⟩ := map_eq_ok.1 h
    rw [count_fieldType hx, FieldType.parse_spells ht]

theorem count_signature (hx : IsForeign x) {short : Bool} {text result : String} {types : List String}
    (h : Spelling.signature short text = .ok (result, types)) :
    result.toList.count x + tally x types = text.toList.count x := by
  obtain ⟨t, ht, hspelled⟩ := bind_eq_ok.1 h
  obtain ⟨rfl, rfl⟩ := Prod.mk.inj (pure_eq_ok.1 hspelled)
  have hparameters : tally x (t.parameters.map (Spelling.fieldType short)) =
      (t.parameters.flatMap FieldType.descriptor).count x := by
    induction t.parameters with
    | nil => rfl
    | cons p ps ih =>
      rw [List.map_cons, tally_cons, List.flatMap_cons, List.count_append, ih, count_fieldType hx]
  have hopen : '(' ≠ x := by rcases hx with rfl | rfl | rfl <;> decide
  have hclose : ')' ≠ x := by rcases hx with rfl | rfl | rfl <;> decide
  rw [MethodType.parse_spells ht, MethodType.descriptor, List.count_append, List.count_cons_of_ne hopen,
    List.count_cons_of_ne hclose, ← hparameters, Nat.add_comm]
  congr 1
  cases t.result with
  | none =>
    show "void".toList.count x = ['V'].count x
    rcases hx with rfl | rfl | rfl <;> decide
  | some r => exact count_fieldType hx short r

/-! ### Items -/

namespace Item

def text? : Item → Option String
  | text s => some s
  | _ => none

def isLink : Item → Bool
  | link .. => true
  | _ => false

end Item

/-- How often a character stands in the items that are text. -/
def weight (x : Char) (items : List Item) : Nat := tally x (items.filterMap Item.text?)

/-- Written items have the brackets of their links and those of their texts. -/
theorem count_written (hx : IsBracket x) (links : Linker) (items : List Item) :
    (String.join (items.map (Item.write links))).toList.count x =
      2 * items.countP Item.isLink + weight x items := by
  rw [count_join]
  induction items with
  | nil => rfl
  | cons item items ih =>
    rw [List.map_cons, tally_cons, ih]
    cases item with
    | link kind value =>
      rw [List.countP_cons_of_pos rfl]
      show (links.link kind value).toList.count x + _ = _
      rw [count_link hx]
      show _ = 2 * (items.countP Item.isLink + 1) + weight x items
      omega
    | text s =>
      rw [List.countP_cons_of_neg Bool.false_ne_true]
      show s.toList.count x + _ = _ + (s.toList.count x + weight x items)
      omega
    | defines _ | uses _ | mark _ =>
      rw [List.countP_cons_of_neg Bool.false_ne_true]
      exact Nat.zero_add _

section Weight

@[simp] theorem weight_nil : weight x [] = 0 := rfl

@[simp] theorem weight_append (items items' : List Item) :
    weight x (items ++ items') = weight x items + weight x items' := by
  rw [weight, List.filterMap_append, tally_append]
  rfl

@[simp] theorem weight_cons_text (s : String) (items : List Item) :
    weight x (.text s :: items) = s.toList.count x + weight x items := rfl

/-- A fixed text without foreign characters weighs nothing. -/
theorem weight_cons_word (hx : IsForeign x) {s : String} (hs : '<' ∉ s.toList ∧ '>' ∉ s.toList ∧ '&' ∉ s.toList)
    (items : List Item) : weight x (.text s :: items) = weight x items := by
  rw [weight_cons_text, count_word hx hs, Nat.zero_add]

@[simp] theorem weight_cons_link (kind : LinkKind) (value : String) (items : List Item) :
    weight x (.link kind value :: items) = weight x items := rfl

@[simp] theorem weight_cons_defines (name : String) (items : List Item) :
    weight x (.defines name :: items) = weight x items := rfl

@[simp] theorem weight_cons_uses (name : String) (items : List Item) :
    weight x (.uses name :: items) = weight x items := rfl

@[simp] theorem weight_cons_mark (i : Index) (items : List Item) :
    weight x (.mark i :: items) = weight x items := rfl

/-- Parts one after the other. -/
theorem weight_flatten {α : Type} {f : α → List String} {xs : List α} {groups : List (List Item)}
    (h : List.Forall₂ (fun a g => weight x g = tally x (f a)) xs groups) :
    weight x groups.flatten = tally x (xs.flatMap f) := by
  induction h with
  | nil => rfl
  | cons ha _ ih => rw [List.flatten_cons, weight_append, List.flatMap_cons, tally_append, ha, ih]

theorem weight_flatten_zero {α : Type} {xs : List α} {groups : List (List Item)}
    (h : List.Forall₂ (fun _ g => weight x g = 0) xs groups) : weight x groups.flatten = 0 := by
  induction h with
  | nil => rfl
  | cons ha _ ih => rw [List.flatten_cons, weight_append, ha, ih]

end Weight

/-! ### The parts of a class -/

namespace Walk

variable {pool : Pool} {items : List Item}

@[simp] theorem weight_definition (name : String) : weight x (definition name) = 0 := rfl

@[simp] theorem weight_reference (name : String) : weight x (reference name) = 0 := rfl

theorem weight_modifiers (hx : IsForeign x) (access : AccessFlags) (carrier : AccessFlags.Carrier) :
    weight x (modifiers access carrier) = 0 := by
  have hwords : (access.spell carrier).toList.count x = 0 := by
    have hblank : " ".toList.count x = 0 := count_word hx (by decide)
    rw [AccessFlags.spell, count_intercalate hblank, tally_eq_zero]
    intro s hs
    obtain ⟨w, hw, rfl⟩ := List.mem_map.1 hs
    have hall : ∀ w ∈ AccessFlags.words carrier, '<' ∉ w.2.toList ∧ '>' ∉ w.2.toList ∧ '&' ∉ w.2.toList := by
      cases carrier <;> decide
    exact List.count_eq_zero.1 (count_word hx (hall w (List.mem_of_mem_filter hw)))
  unfold modifiers
  dsimp only
  split
  · rfl
  · rw [weight_cons_text, hwords, weight_cons_word hx (by decide)]
    rfl

/-- A type and the blank behind it. -/
theorem weight_type (hx : IsForeign x) (type : String) :
    weight x [.text type, .text " "] = type.toList.count x := by
  rw [weight_cons_text, weight_cons_word hx (by decide), weight_nil, Nat.add_zero]

theorem weight_packageLine (hx : IsForeign x) (package : String) : weight x (packageLine package) = 0 := by
  unfold packageLine
  split
  · rfl
  · simp (disch := decide) only [weight_cons_word hx, weight_cons_link, weight_cons_defines, weight_nil]

theorem className_weight {i : Index} {name : String} (h : className pool i = .ok (name, items)) :
    weight x items = 0 := by
  obtain ⟨n, -, -, rfl⟩ := className_eq_ok.1 h
  rfl

theorem classUse_weight {before : String} (hbefore : before.toList.count x = 0) {i : Index}
    (h : classUse pool before i = .ok items) : weight x items = 0 := by
  obtain ⟨name, marks, hname, rfl⟩ := classUse_eq_ok.1 h
  simp [className_weight hname, hbefore]

/-- What a row of a table of local variables spells out: a descriptor, unless it is the receiver's. -/
def rowTexts (pool : Pool) (l : Local) : List String :=
  if pool.utf8? l.name = some "this" then [] else [(pool.utf8? l.descriptor).getD ""]

/-- The descriptors that the tables of local variables of some attributes spell out. -/
def localTexts (pool : Pool) (attributes : List Attribute) : List String :=
  (attributes.filterMap (·.code?)).flatMap fun code => code.localTables.flatten.flatMap (rowTexts pool)

theorem localRow_weight (hx : IsForeign x) {l : Local} (h : localRow pool l = .ok items) :
    weight x items = tally x (rowTexts pool l) := by
  obtain ⟨name, text, hname, htext, ⟨rfl, rfl⟩ | ⟨hthis, type, htype, rfl⟩⟩ := localRow_eq_ok.1 h
  · rw [rowTexts, if_pos hname]
    rfl
  · rw [rowTexts, if_neg (by simpa [hname] using hthis), htext]
    simp (disch := decide) only [weight_append, weight_cons_mark, weight_cons_word hx, weight_nil,
      weight_definition, weight_type hx]
    simp [count_type hx htype]

theorem locals_weight (hx : IsForeign x) {code : Code} (h : locals pool code = .ok items) :
    weight x items = tally x (code.localTables.flatten.flatMap (rowTexts pool)) := by
  obtain ⟨groups, hgroups, rfl⟩ := locals_eq_ok.1 h
  exact weight_flatten (hgroups.imp fun _ _ => localRow_weight hx)

theorem bodies_weight (hx : IsForeign x) {attributes : List Attribute} {bodies : List (List Item)}
    (h : List.Forall₂ (fun code g => locals pool code = .ok g) (attributes.filterMap (·.code?)) bodies) :
    weight x bodies.flatten = tally x (localTexts pool attributes) :=
  weight_flatten (h.imp fun _ _ => locals_weight hx)

theorem field_weight (hx : IsForeign x) {f : Member} (h : field pool f = .ok items) :
    weight x items = tally x [f.descriptorText pool] := by
  obtain ⟨name, text, type, -, htext, htype, rfl⟩ := field_eq_ok.1 h
  simp (disch := decide) only [weight_append, weight_cons_mark, weight_cons_word hx, weight_nil,
    weight_definition, weight_modifiers hx, weight_type hx]
  simp [count_type hx htype, Member.descriptorText, htext]

theorem throws_weight (hx : IsForeign x) {classes : List Index} (h : throws pool classes = .ok items) :
    weight x items = 0 := by
  obtain ⟨groups, hgroups, rfl⟩ := throws_eq_ok.1 h
  refine weight_flatten_zero (hgroups.imp fun y g hg => classUse_weight ?_ hg)
  split
  · exact count_word hx (by decide)
  · exact count_word hx (by decide)

theorem weight_parameter (hx : IsForeign x) (type name : String) :
    weight x (parameter type name) = type.toList.count x + name.toList.count x := by
  unfold parameter
  split
  · rename_i hname
    rw [hname]
    rfl
  · have hblank : " ".toList.count x = 0 := count_word hx (by decide)
    rw [weight_cons_text, String.toList_append, String.toList_append, List.count_append, List.count_append,
      hblank]
    rfl

theorem weight_separated {separator : String} (hseparator : separator.toList.count x = 0)
    (groups : List (List Item)) :
    weight x (separated (.text separator) groups) = (groups.map (weight x)).sum := by
  induction groups with
  | nil => rfl
  | cons group rest ih =>
    cases rest with
    | nil => simp [separated]
    | cons next rest =>
      rw [separated, weight_append, weight_cons_text, hseparator, ih, Nat.zero_add]
      · rfl
      · exact List.cons_ne_nil next rest

theorem weight_parameters (hx : IsForeign x) {types names : List String} (hlen : names.length = types.length) :
    weight x (separated (.text ", ") (List.zipWith parameter types names)) = tally x types + tally x names := by
  rw [weight_separated (count_word hx (by decide))]
  induction types generalizing names with
  | nil =>
    obtain rfl := List.length_eq_zero_iff.1 hlen
    rfl
  | cons type types ih =>
    cases names with
    | nil => cases hlen
    | cons name names =>
      rw [List.zipWith_cons_cons, List.map_cons, List.sum_cons, ih (Nat.succ.inj hlen), weight_parameter hx,
        tally_cons, tally_cons]
      omega

/-- The recorded names that count for a method with the given number of parameters. -/
def recordedTexts (pool : Pool) (m : Member) (count : Nat) : List String :=
  ((recordedRows pool m count).getD []).map fun p => (pool.utf8? p.name).getD ""

theorem names_eq {rows : List Parameter} {names : List String} (h : List.Forall₂ (Names pool) rows names) :
    names = rows.map fun p => (pool.utf8? p.name).getD "" := by
  induction h with
  | nil => rfl
  | cons hname _ ih =>
    rw [List.map_cons, ← ih]
    rcases hname with ⟨hzero, rfl⟩ | ⟨-, htext⟩
    · rw [hzero]
      rfl
    · rw [htext]
      rfl

/-- There is a name for each parameter, and the names that are not empty are recorded ones. -/
theorem parameterNames_texts {m : Member} {count : Nat} {names : List String} {marks : List Item}
    (h : parameterNames pool m count = .ok (names, marks)) :
    names.length = count ∧ tally x names = tally x (recordedTexts pool m count) ∧ weight x marks = 0 := by
  obtain ⟨rowMarks, rfl, hrows⟩ := parameterNames_eq_ok.1 h
  have hmarks : ∀ {α : Type} (f : α → Index) (as : List α), weight x (as.map fun a => .mark (f a)) = 0 := by
    intro α f as
    induction as with
    | nil => rfl
    | cons a as ih => exact ih
  unfold recordedTexts
  rcases hrows with ⟨hnone, rfl, rfl⟩ | ⟨rows, hsome, hnames, rfl⟩
  · refine ⟨List.length_replicate, ?_, ?_⟩
    · rw [hnone, tally_eq_zero.2 fun s hs => by simp [List.eq_of_mem_replicate hs]]
      rfl
    · rw [weight_append, hmarks]
      rfl
  · have hcount : rows.length = count := by simpa using (Option.filter_eq_some_iff.1 hsome).2
    refine ⟨hnames.length_eq.symm.trans hcount, ?_, ?_⟩
    · rw [names_eq hnames, hsome]
      rfl
    · rw [weight_append, hmarks, hmarks]

/-- What a method spells out: its descriptor, recorded parameter names and local variables. -/
def methodTexts (pool : Pool) (m : Member) : List String :=
  let count := match MethodType.parse (m.descriptorText pool) with
    | .ok t => t.parameters.length
    | .error _ => 0
  m.descriptorText pool :: (recordedTexts pool m count ++ localTexts pool m.attributes)

theorem method_weight (hx : IsForeign x) {m : Member} (h : method pool m = .ok items) :
    weight x items = tally x (methodTexts pool m) := by
  obtain ⟨name, text, result, types, names, marks, thrown, bodies, -, htext, hsignature, hnames, hthrown,
    hbodies, rfl⟩ := method_eq_ok.1 h
  obtain ⟨t, ht, -, htypes⟩ := signature_eq_ok.1 hsignature
  have hlength : types.length = t.parameters.length := by rw [htypes, List.length_map]
  obtain ⟨hlen, htally, hmarks⟩ := parameterNames_texts (x := x) hnames
  have hthrows : weight x thrown.flatten = 0 := weight_flatten_zero (hthrown.imp fun _ _ => throws_weight hx)
  have hdescriptor : m.descriptorText pool = text := by rw [Member.descriptorText, htext]; rfl
  simp (disch := decide) only [weight_append, weight_cons_mark, weight_cons_word hx, weight_nil,
    weight_definition, weight_modifiers hx, weight_type hx, weight_parameters hx hlen, hmarks, hthrows,
    bodies_weight hx hbodies]
  simp only [methodTexts, hdescriptor, ht, ← hlength, tally_cons, tally_append, ← htally,
    ← count_signature hx hsignature]
  omega

theorem sourceFile_weight (hx : IsForeign x) {c : ClassModel} (h : sourceFile c = .ok items) :
    weight x items = 0 := by
  obtain ⟨name, marks, rfl, hmarks⟩ := sourceFile_eq_ok.1 h
  have hname : weight x [.link .path name, .defines name, .text "\n"] = 0 := by
    rw [weight_cons_link, weight_cons_defines, weight_cons_word hx (by decide), weight_nil]
  rcases hmarks with ⟨-, -, rfl⟩ | ⟨a, i, -, -, -, rfl⟩
  · exact hname
  · rw [weight_append, hname]
    rfl

theorem header_weight (hx : IsForeign x) {c : ClassModel} (h : header c = .ok items) : weight x items = 0 := by
  obtain ⟨name, marks, extended, implemented, hname, hsuper, himplemented, rfl⟩ := header_eq_ok.1 h
  have hextended : weight x extended = 0 := by
    rcases hsuper with ⟨-, rfl⟩ | ⟨-, hextended⟩
    · rfl
    · exact classUse_weight (count_word hx (by decide)) hextended
  have hinterfaces : weight x implemented.flatten = 0 := by
    refine weight_flatten_zero (himplemented.imp fun y g hg => classUse_weight ?_ hg)
    split
    · exact count_word hx (by decide)
    · exact count_word hx (by decide)
  simp (disch := decide) only [weight_append, className_weight hname, weight_packageLine hx,
    weight_modifiers hx, weight_definition, hextended, hinterfaces, weight_cons_word hx, weight_nil]

end Walk

/-- The texts of a class that its rendition spells out without escaping them. -/
def verbatim (c : ClassModel) : List String :=
  Walk.localTexts c.pool c.attributes ++ c.fields.flatMap (fun f => [f.descriptorText c.pool]) ++
    c.methods.flatMap (Walk.methodTexts c.pool)

theorem Walk.items_weight (hx : IsForeign x) {c : ClassModel} {items : List Item}
    (h : Walk.items c = .ok items) : weight x items = tally x (verbatim c) := by
  obtain ⟨source, head, bodies, fields, methods, hsource, hhead, hbodies, hfields, hmethods, rfl⟩ :=
    items_eq_ok.1 h
  have hf := weight_flatten (hfields.imp fun _ _ => field_weight hx)
  have hm := weight_flatten (hmethods.imp fun _ _ => method_weight hx)
  simp (disch := decide) only [weight_append, sourceFile_weight hx hsource, header_weight hx hhead,
    bodies_weight hx hbodies, hf, hm, weight_cons_word hx, weight_nil]
  rw [verbatim, tally_append, tally_append]
  omega

/-- **Beside two for each link, the brackets of a rendition are those of the texts it spells out**;
so all brackets are links' exactly when none of these texts has one. -/
theorem render_brackets {links : Linker} {c : ClassModel} {r : Rendition} (h : render links c = .ok r) :
    ∃ items, Walk.items c = .ok items ∧
      (∀ x, IsBracket x → r.text.toList.count x = 2 * items.countP Item.isLink + tally x (verbatim c)) ∧
      ((∀ x, IsBracket x → r.text.toList.count x = 2 * items.countP Item.isLink) ↔
        ∀ s ∈ verbatim c, '<' ∉ s.toList ∧ '>' ∉ s.toList) := by
  obtain ⟨items, hitems, hr⟩ := bind_eq_ok.1 h
  obtain rfl := pure_eq_ok.1 hr
  have hcount : ∀ x, IsBracket x → (String.join (items.map (Item.write links))).toList.count x =
      2 * items.countP Item.isLink + tally x (verbatim c) := by
    intro x hx
    rw [count_written hx, Walk.items_weight hx.isForeign hitems]
  refine ⟨items, hitems, hcount, ?_, ?_⟩
  · intro hlinks s hs
    have hzero : ∀ x, IsBracket x → x ∉ s.toList := by
      intro x hx
      have hboth := (hcount x hx).symm.trans (hlinks x hx)
      have hnone : tally x (verbatim c) = 0 := by omega
      exact tally_eq_zero.1 hnone s hs
    exact ⟨hzero '<' (.inl rfl), hzero '>' (.inr rfl)⟩
  · intro hnone x hx
    have hzero : tally x (verbatim c) = 0 := by
      refine tally_eq_zero.2 fun s hs => ?_
      rcases hx with rfl | rfl
      · exact (hnone s hs).1
      · exact (hnone s hs).2
    rw [hcount x hx, hzero]
    rfl

/-- A class whose one field has a type with brackets in its name. -/
def taggedClass : ClassModel where
  minor := 0
  major := 52
  pool := ⟨#[some (.utf8 "A"), some (.classRef 1), some (.utf8 "f"), some (.utf8 "L<b>;")]⟩
  access := 0
  this := 2
  super := 0
  interfaces := []
  fields := [⟨0, 3, 4, []⟩]
  methods := []
  attributes := []

def taggedRendition : Rendition where
  text := "<a href=\"/s?path=&lt;Unknown&gt;\">&lt;Unknown&gt;</a>\n" ++
    "<a class=\"d\" name=\"A\" href=\"/s?defs=A\">A</a> \x7b\n" ++
    "\t<b> <a class=\"d\" name=\"f\" href=\"/s?defs=f\">f</a>\n\x7d\n"
  definitions := ["<Unknown>", "A", "f"]
  references := ["<Unknown>", "A", "f"]
  marks := ⟨#[false, true, true, true, true]⟩

theorem render_taggedClass : render ⟨"/s?"⟩ taggedClass = .ok taggedRendition := by
  decide +kernel

/-- Three links, and seven brackets of each kind. -/
theorem taggedClass_brackets :
    render ⟨"/s?"⟩ taggedClass = .ok taggedRendition ∧ taggedRendition.text.toList.count '<' = 7 ∧
    ∃ items, Walk.items taggedClass = .ok items ∧
      (∀ x, IsBracket x → taggedRendition.text.toList.count x =
        2 * items.countP Item.isLink + tally x ["L<b>;"]) ∧
      ((∀ x, IsBracket x → taggedRendition.text.toList.count x = 2 * items.countP Item.isLink) ↔
        ∀ s ∈ ["L<b>;"], '<' ∉ s.toList ∧ '>' ∉ s.toList) :=
  ⟨render_taggedClass, by decide +kernel, render_brackets render_taggedClass⟩

end ClassAtlas.Xref
