import ClassAtlas.Text.Utf8

/-! The order of texts is the order of their bytes.

Texts are compared character by character, and a store compares their UTF-8 bytes.
`encode_lt_encode` says that this is the same order. A greater character has a greater
group of bytes whatever follows the two groups, for a longer group starts with a greater
byte and groups of one length hold the digits of the character to the base 64. -/
namespace ClassAtlas.Text.Utf8

/-! ### Digits -/

theorem div_mod_lt {m n : Nat} (h : m < n) :
    m / 64 < n / 64 ∨ m / 64 = n / 64 ∧ m % 64 < n % 64 := by
  omega

/-- Numbers in order have their digits to the base 64 in order, the highest first. -/
theorem digits_lt {m n : Nat} (h : m < n) :
    m / 262144 < n / 262144 ∨ m / 262144 = n / 262144 ∧
      (m / 4096 % 64 < n / 4096 % 64 ∨ m / 4096 % 64 = n / 4096 % 64 ∧
        (m / 64 % 64 < n / 64 % 64 ∨ m / 64 % 64 = n / 64 % 64 ∧ m % 64 < n % 64)) := by
  have h2 : ∀ k, k / 4096 = k / 64 / 64 := by omega
  have h3 : ∀ k, k / 262144 = k / 64 / 64 / 64 := by omega
  simp only [h2, h3]
  rcases div_mod_lt h with h | ⟨e, h⟩
  · rcases div_mod_lt h with h | ⟨e, h⟩
    · rcases div_mod_lt h with h | ⟨e, h⟩
      · exact .inl h
      · exact .inr ⟨e, .inl h⟩
    · exact .inr ⟨by rw [e], .inr ⟨by rw [e], .inl h⟩⟩
  · exact .inr ⟨by rw [e], .inr ⟨by rw [e], .inr ⟨by rw [e], h⟩⟩⟩

/-! ### Groups -/

theorem val_lt (c : Char) : c.val.toNat < 0x110000 := by
  have h := c.valid
  simp only [UInt32.isValidChar, Nat.isValidChar] at h
  omega

/-- The group of a greater character is greater, whatever follows. -/
theorem encodeChar_append_lt {c d : Char} (h : c < d) (x y : Bytes) :
    String.utf8EncodeChar c ++ x < String.utf8EncodeChar d ++ y := by
  have hd := val_lt d
  have hlt : c.val.toNat < d.val.toNat := h
  have hdigits := digits_lt hlt
  simp only [String.utf8EncodeChar]
  generalize c.val.toNat = m at *
  generalize d.val.toNat = n at *
  repeat' split
  all_goals
    simp (disch := omega) only [List.cons_append, List.nil_append, List.cons_lt_cons_iff,
      UInt8.lt_iff_toNat_lt, ← UInt8.toNat_inj, UInt8.toNat_ofNat', Nat.reducePow, Nat.mod_eq_of_lt]
    omega

/-! ### Texts -/

theorem encodeChars_lt {a b : List Char} (h : a < b) :
    a.flatMap String.utf8EncodeChar < b.flatMap String.utf8EncodeChar := by
  induction a generalizing b with
  | nil =>
    cases b with
    | nil => exact absurd h (List.lt_irrefl _)
    | cons d b =>
      obtain ⟨e, es, he⟩ := List.exists_cons_of_ne_nil (String.utf8EncodeChar_ne_nil (c := d))
      rw [List.flatMap_cons, he]
      exact List.nil_lt_cons _ _
  | cons c a ih =>
    cases b with
    | nil => exact absurd h (List.not_lt_nil _)
    | cons d b =>
      rw [List.flatMap_cons, List.flatMap_cons]
      rcases List.cons_lt_cons_iff.1 h with hhead | ⟨rfl, htail⟩
      · exact encodeChar_append_lt hhead _ _
      · exact List.append_left_lt (ih htail)

/-- **The order of texts is that of their bytes.** -/
theorem encode_lt_encode {a b : String} : encode a < encode b ↔ a < b := by
  constructor
  · intro h
    rcases Std.lt_trichotomy a b with hab | rfl | hba
    · exact hab
    · exact absurd h (List.lt_irrefl _)
    · exact absurd h (List.lt_asymm (encodeChars_lt hba))
  · intro h
    exact encodeChars_lt h

end ClassAtlas.Text.Utf8
