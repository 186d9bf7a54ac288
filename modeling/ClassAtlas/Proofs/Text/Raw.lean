import ClassAtlas.Proofs.Text.ByteOrder
import ClassAtlas.Proofs.Text.Encoding
import ClassAtlas.Text.Raw

/-! Raw texts and the characters they spell.

The text of some characters shows these characters, so it is its own mended form, and no other raw
text is (`isText_iff`). Raw texts are in a strict order, that of their bytes, and the texts of characters
stand in it as the characters do (`ofString_lt_ofString`). -/
namespace ClassAtlas.RawText

/-! ### Characters -/

@[simp] theorem shown_ofString (s : String) : (ofString s).shown = s := Text.Utf8.decodeLossy_encode s

@[simp] theorem mended_ofString (s : String) : (ofString s).mended = ofString s := by
  rw [mended, shown_ofString]

theorem ofString_injective : Function.Injective ofString := fun s t h => by
  rw [← shown_ofString s, h, shown_ofString]

@[simp] theorem ofString_inj {s t : String} : ofString s = ofString t ↔ s = t := ofString_injective.eq_iff

theorem isText_ofString (s : String) : (ofString s).IsText := ⟨s, rfl⟩

theorem isText_mended (t : RawText) : t.mended.IsText := ⟨t.shown, rfl⟩

/-- A raw text spells characters exactly when mending leaves it alone. -/
theorem isText_iff {t : RawText} : t.IsText ↔ t.mended = t := by
  constructor
  · rintro ⟨s, rfl⟩
    exact mended_ofString s
  · intro h
    exact h ▸ isText_mended t

theorem IsText.mended {t : RawText} (h : t.IsText) : t.mended = t := isText_iff.1 h

/-- A raw text that shows no replacement is the text that it shows. -/
theorem ofString_shown {t : RawText} (h : Text.Units.replacement ∉ t.shown.toList) : ofString t.shown = t := by
  obtain ⟨bytes⟩ := t
  exact congrArg RawText.mk (Text.Utf8.encode_decodeLossy h)

instance (t : RawText) : Decidable t.IsText := decidable_of_iff _ isText_iff.symm

@[simp] theorem bytes_append (a b : RawText) : (a ++ b).bytes = a.bytes ++ b.bytes := rfl

/-! ### Order -/

variable {a b c : RawText}

theorem lt_irrefl (a : RawText) : ¬ a < a := List.lt_irrefl a.bytes

theorem lt_trans (h : a < b) (h' : b < c) : a < c := List.lt_trans h h'

theorem lt_asymm (h : a < b) : ¬ b < a := fun h' => lt_irrefl a (lt_trans h h')

theorem lt_trichotomy (a b : RawText) : a < b ∨ a = b ∨ b < a := by
  obtain ⟨as⟩ := a
  obtain ⟨bs⟩ := b
  rcases Std.lt_trichotomy as bs with h | rfl | h
  · exact .inl h
  · exact .inr (.inl rfl)
  · exact .inr (.inr h)

theorem lt_of_not_lt_of_ne (h : ¬ a < b) (hne : a ≠ b) : b < a :=
  ((lt_trichotomy a b).resolve_left h).resolve_left hne

@[simp] theorem ofString_lt_ofString {s t : String} : ofString s < ofString t ↔ s < t :=
  Text.Utf8.encode_lt_encode

end ClassAtlas.RawText
