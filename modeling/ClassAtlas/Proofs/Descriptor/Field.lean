import ClassAtlas.Proofs.Descriptor
import ClassAtlas.Proofs.Text.Bytewise

/-! The language of field descriptors.

`IsField` says what a field descriptor looks like, without the reader and without the types it reads:
up to 255 brackets and then a letter, or a name between `L` and the first semicolon after it. These are
the texts that are read (`isField_iff`), and reading and writing undo each other (`parse_exact`).

All characters that the reader looks for are below 128. So it does not matter whether a text is taken
by its characters or by its bytes, in which brackets and parentheses inside a name and names in any
script are what they are (`fieldType?_bytewise`). -/
namespace ClassAtlas
open Text

namespace Descriptor

/-- The letters of the primitive types. -/
def letters : List Char := ['B', 'C', 'D', 'F', 'I', 'J', 'S', 'Z']

/-- An element type as text. -/
inductive IsElement : List Char → Prop where
  | letter {c : Char} : c ∈ letters → IsElement [c]
  | name {cs : List Char} : cs ≠ [] → ';' ∉ cs → IsElement ('L' :: cs ++ [';'])

/-- A field type as text: up to 255 brackets, and then an element type. -/
def IsField (cs : List Char) : Prop :=
  ∃ n ≤ 255, ∃ element, cs = List.replicate n '[' ++ element ∧ IsElement element

theorem mem_letters {c : Char} : c ∈ letters ↔ ∃ p : Primitive, p.letter = c := by
  have hall : letters =
      [Primitive.byte, .char, .double, .float, .int, .long, .short, .boolean].map Primitive.letter := rfl
  rw [hall, List.mem_map]
  constructor
  · intro h
    obtain ⟨p, -, hp⟩ := h
    exact ⟨p, hp⟩
  · intro h
    obtain ⟨p, hp⟩ := h
    exact ⟨p, by cases p <;> simp, hp⟩

theorem isElement_iff {cs : List Char} :
    IsElement cs ↔ ∃ e : Element, e.IsSpellable ∧ cs = FieldType.descriptor ⟨0, e⟩ := by
  constructor
  · intro h
    cases h with
    | letter hc =>
      obtain ⟨p, rfl⟩ := mem_letters.1 hc
      exact ⟨.primitive p, trivial, rfl⟩
    | @name cs hne hsemicolon =>
      refine ⟨.object (String.ofList cs), ⟨by simpa using hne, by simpa using hsemicolon⟩, ?_⟩
      simp [FieldType.descriptor]
  · rintro ⟨e, he, rfl⟩
    cases e with
    | primitive p => exact .letter (mem_letters.2 ⟨p, rfl⟩)
    | object name => exact .name (by simpa using he.1) he.2

/-- The texts of the language are the descriptors of the types that have one. -/
theorem isField_iff {cs : List Char} : IsField cs ↔ ∃ t : FieldType, t.IsSpellable ∧ cs = t.descriptor := by
  constructor
  · rintro ⟨n, hn, element, rfl, helement⟩
    obtain ⟨e, he, rfl⟩ := isElement_iff.1 helement
    exact ⟨⟨n, e⟩, ⟨hn, he⟩, by simp [FieldType.descriptor]⟩
  · rintro ⟨⟨n, e⟩, ⟨hn, he⟩, rfl⟩
    refine ⟨n, hn, FieldType.descriptor ⟨0, e⟩, ?_, isElement_iff.2 ⟨e, he, rfl⟩⟩
    simp [FieldType.descriptor]

end Descriptor

/-! ### Characters and bytes -/

/-- The element with its name taken byte by byte. -/
def Element.bytewise : Element → Element
  | primitive p => primitive p
  | object name => object (String.ofList (Text.bytewise name.toList))

/-- The type with the name in it taken byte by byte. -/
def FieldType.bytewise (t : FieldType) : FieldType := ⟨t.depth, t.element.bytewise⟩

namespace Descriptor

theorem letter_ascii (p : Primitive) : p.letter.toNat < 128 := by
  cases p <;> decide

/-- No element starts with a character beyond those below 128. -/
theorem element?_of_not_ascii {c : Char} (h : ¬ c.toNat < 128) (cs : List Char) : element? (c :: cs) = none := by
  have hletter : Primitive.ofLetter? c = none := by
    cases hp : Primitive.ofLetter? c with
    | none => rfl
    | some p => exact absurd (Primitive.letter_of_ofLetter? hp ▸ letter_ascii p) h
  have hname : c ≠ 'L' := by
    rintro rfl
    exact h (by decide)
  simp only [element?, hletter, if_neg hname]

theorem element?_bytewise (cs : List Char) :
    element? (Text.bytewise cs) = (element? cs).map fun (e, rest) => (e.bytewise, Text.bytewise rest) := by
  cases cs with
  | nil => rfl
  | cons c cs =>
    by_cases hc : c.toNat < 128
    · rw [bytewise_cons_ascii hc]
      have hcut := bne_of_mem_charBytes (a := ';') (by decide)
      simp only [element?, takeWhile_bytewise hcut, dropWhile_bytewise hcut, isEmpty_bytewise]
      cases Primitive.ofLetter? c with
      | some p => rfl
      | none =>
        have hhead := List.head?_dropWhile_not (· != ';') cs
        cases hdrop : cs.dropWhile (· != ';') with
        | nil => simp
        | cons d rest =>
          obtain rfl : d = ';' := by simpa [hdrop] using hhead
          rw [bytewise_cons_ascii (by decide)]
          dsimp only
          split
          · split
            · rfl
            · simp [Element.bytewise]
          · rfl
    · obtain ⟨d, ds, hds⟩ := List.exists_cons_of_ne_nil (charBytes_ne_nil c)
      have hd : ¬ d.toNat < 128 := fun hd => hc (eq_of_mem_charBytes hd (hds ▸ List.mem_cons_self) ▸ hd)
      rw [element?_of_not_ascii hc, bytewise_cons, hds, List.cons_append, element?_of_not_ascii hd]
      rfl

theorem length_brackets_bytewise (cs : List Char) :
    (Text.bytewise (cs.takeWhile (· == '['))).length = (cs.takeWhile (· == '[')).length := by
  induction cs with
  | nil => rfl
  | cons c cs ih =>
    by_cases hc : c = '['
    · subst hc
      rw [List.takeWhile_cons_of_pos (by rfl), bytewise_cons_ascii (by decide), List.length_cons, List.length_cons, ih]
    · rw [List.takeWhile_cons_of_neg (by simpa using hc)]
      rfl

/-- What is read from the bytes of a text are the bytes of what is read from the text. -/
theorem fieldType?_bytewise (cs : List Char) :
    fieldType? (Text.bytewise cs) = (fieldType? cs).map fun (t, rest) => (t.bytewise, Text.bytewise rest) := by
  have hcut := beq_of_mem_charBytes (a := '[') (by decide)
  simp only [fieldType?, takeWhile_bytewise hcut, dropWhile_bytewise hcut, length_brackets_bytewise,
    element?_bytewise]
  split
  · cases element? (cs.dropWhile (· == '[')) <;> rfl
  · rfl

/-- The field type whose descriptor is the whole text. -/
def whole? (cs : List Char) : Option FieldType :=
  match fieldType? cs with
  | some (t, []) => some t
  | _ => none

theorem whole?_bytewise (cs : List Char) : whole? (Text.bytewise cs) = (whole? cs).map FieldType.bytewise := by
  unfold whole?
  rw [fieldType?_bytewise]
  cases fieldType? cs with
  | none => rfl
  | some p =>
    obtain ⟨t, rest⟩ := p
    cases rest with
    | nil => rfl
    | cons c rest =>
      have hrest := isEmpty_bytewise (c :: rest)
      cases hbytes : Text.bytewise (c :: rest) with
      | nil => simp [hbytes] at hrest
      | cons d ds => simp [hbytes]

end Descriptor

/-! ### Exactness -/

namespace FieldType

theorem exists_parse_iff {text : String} : (∃ t, parse text = .ok t) ↔ Descriptor.IsField text.toList := by
  simp only [parse_eq_ok, Descriptor.isField_iff, and_comm]

theorem parse_descriptor {t : FieldType} (h : t.IsSpellable) : parse (String.ofList t.descriptor) = .ok t :=
  parse_eq_ok.2 ⟨String.toList_ofList, h⟩

theorem toOption_parse (text : String) : (parse text).toOption = Descriptor.whole? text.toList := by
  unfold parse Descriptor.whole?
  cases Descriptor.fieldType? text.toList with
  | none => rfl
  | some p =>
    obtain ⟨t, rest⟩ := p
    cases rest <;> rfl

theorem parse_bytewise (text : String) :
    (parse (String.ofList (Text.bytewise text.toList))).toOption = (parse text).toOption.map bytewise := by
  rw [toOption_parse, toOption_parse, String.toList_ofList, Descriptor.whole?_bytewise]

/-- **Field descriptors are read exactly.** The texts of the language are read and no others; what is
read from a text is written as that text; every type with a descriptor is read back from it; and a text
that is not read is the one that the failure names. All this goes for a text taken byte by byte as well. -/
theorem parse_exact :
    (∀ text, (∃ t, parse text = .ok t) ↔ Descriptor.IsField text.toList) ∧
    (∀ text t, parse text = .ok t → String.ofList t.descriptor = text) ∧
    (∀ t : FieldType, t.element.IsSpellable → t.depth ≤ 255 → parse (String.ofList t.descriptor) = .ok t) ∧
    (∀ text fault, parse text = .error fault → fault = .field text) ∧
    ∀ text, (parse (String.ofList (Text.bytewise text.toList))).toOption = (parse text).toOption.map bytewise := by
  refine ⟨fun _ => exists_parse_iff, fun text t h => ?_, fun t he hd => parse_descriptor ⟨hd, he⟩,
    fun text fault h => ?_, parse_bytewise⟩
  · rw [← parse_spells h, String.ofList_toList]
  · unfold parse at h
    split at h
    · cases h
    · exact (Except.error.inj h).symm

/-- A name with a bracket, a parenthesis and a letter of two bytes, in an array of arrays. Without a name
there is no descriptor. -/
theorem nestedText_exact :
    Descriptor.IsField "[[Lp/é[(;".toList ∧ String.ofList (descriptor ⟨2, .object "p/é[("⟩) = "[[Lp/é[(;" ∧
    parse (String.ofList (descriptor ⟨255, .object "p/é[("⟩)) = .ok ⟨255, .object "p/é[("⟩ ∧
    parse "[[L;" = .error (.field "[[L;") ∧ ¬ Descriptor.IsField "[[L;".toList := by
  have hread : parse "[[Lp/é[(;" = .ok ⟨2, .object "p/é[("⟩ := rfl
  have hempty : parse "[[L;" = .error (.field "[[L;") := rfl
  obtain ⟨hlanguage, hwrite, hback, -, -⟩ := parse_exact
  refine ⟨(hlanguage _).1 ⟨_, hread⟩, hwrite _ _ hread, hback _ ⟨by decide, by decide⟩ (by decide), hempty, ?_⟩
  intro h
  obtain ⟨t, ht⟩ := (hlanguage _).2 h
  rw [hempty] at ht
  cases ht

end FieldType
end ClassAtlas
