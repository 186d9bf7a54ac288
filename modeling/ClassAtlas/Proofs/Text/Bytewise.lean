import ClassAtlas.Proofs.Text.Encoding

/-! Texts taken byte by byte.

A text can be taken as its characters or as the bytes of its UTF-8. Written with a character for each
byte (`bytewise`), a text keeps its characters below 128, and no other character turns into one of
these. So what looks for such characters only, such as a cut at the first semicolon, cuts both forms
at the same places (`takeWhile_bytewise`, `dropWhile_bytewise`). Bytes that are no UTF-8 have such a form
too, so what holds of all texts holds of all strings of bytes. -/
namespace ClassAtlas.Text

/-- The bytes of a character, each as the character of that number. -/
def charBytes (c : Char) : List Char := (String.utf8EncodeChar c).map fun b => Char.ofNat b.toNat

/-- A text with a character for each of its bytes. -/
def bytewise (cs : List Char) : List Char := cs.flatMap charBytes

@[simp] theorem bytewise_nil : bytewise [] = [] := rfl

theorem bytewise_cons (c : Char) (cs : List Char) : bytewise (c :: cs) = charBytes c ++ bytewise cs :=
  List.flatMap_cons

theorem charBytes_ne_nil (c : Char) : charBytes c ≠ [] := by
  simp [charBytes, String.utf8EncodeChar_ne_nil]

theorem charBytes_ascii {c : Char} (h : c.toNat < 128) : charBytes c = [c] := by
  have hbyte : (UInt8.ofNat c.toNat).toNat = c.toNat := by
    rw [UInt8.toNat_ofNat']
    exact Nat.mod_eq_of_lt (by omega)
  rw [charBytes, Utf8.encodeChar_ascii h, List.map_singleton, hbyte, Char.ofNat_toNat]

theorem bytewise_cons_ascii {c : Char} (h : c.toNat < 128) (cs : List Char) :
    bytewise (c :: cs) = c :: bytewise cs := by
  rw [bytewise_cons, charBytes_ascii h, List.singleton_append]

theorem toNat_ofByte (b : UInt8) : (Char.ofNat b.toNat).toNat = b.toNat := by
  have hb := b.toNat_lt
  have hvalid : b.toNat.isValidChar := .inl (by omega)
  rw [Char.ofNat, dif_pos hvalid]
  rfl

/-- Among the bytes of a character are characters below 128 only if it is one itself. -/
theorem eq_of_mem_charBytes {a c : Char} (ha : a.toNat < 128) (h : a ∈ charBytes c) : a = c := by
  obtain ⟨b, hb, rfl⟩ := List.mem_map.1 h
  rw [toNat_ofByte] at ha
  rw [← (Utf8.mem_encodeChar ha c).1 hb, Char.ofNat_toNat]

theorem beq_of_mem_charBytes {a : Char} (ha : a.toNat < 128) (c d : Char) (hd : d ∈ charBytes c) :
    (d == a) = (c == a) := by
  rw [Bool.eq_iff_iff, beq_iff_eq, beq_iff_eq]
  constructor
  · rintro rfl
    exact (eq_of_mem_charBytes ha hd).symm
  · rintro rfl
    rwa [charBytes_ascii ha, List.mem_singleton] at hd

theorem bne_of_mem_charBytes {a : Char} (ha : a.toNat < 128) (c d : Char) (hd : d ∈ charBytes c) :
    (d != a) = (c != a) := by
  rw [bne, bne, beq_of_mem_charBytes ha c d hd]

theorem isEmpty_bytewise (cs : List Char) : (bytewise cs).isEmpty = cs.isEmpty := by
  cases cs with
  | nil => rfl
  | cons c cs => simp [bytewise_cons, charBytes_ne_nil]

/-- A text that does not start with a given character below 128 has bytes that do not start with it. -/
theorem bytewise_head {a c : Char} (ha : a.toNat < 128) (hc : c ≠ a) (cs : List Char) :
    ∃ d ds, bytewise (c :: cs) = d :: ds ∧ d ≠ a := by
  obtain ⟨d, ds, hds⟩ := List.exists_cons_of_ne_nil (charBytes_ne_nil c)
  refine ⟨d, ds ++ bytewise cs, by rw [bytewise_cons, hds, List.cons_append], ?_⟩
  intro hd
  exact hc (eq_of_mem_charBytes ha (hd ▸ hds ▸ List.mem_cons_self)).symm

theorem bytewise_eq_singleton {a : Char} (ha : a.toNat < 128) {cs : List Char} (h : bytewise cs = [a]) :
    cs = [a] := by
  cases cs with
  | nil => cases h
  | cons c cs =>
    by_cases hc : c = a
    · subst hc
      rw [bytewise_cons_ascii ha] at h
      have hempty := isEmpty_bytewise cs
      rw [(List.cons.inj h).2] at hempty
      rw [List.isEmpty_iff.1 hempty.symm]
    · obtain ⟨d, ds, hds, hd⟩ := bytewise_head ha hc cs
      rw [hds] at h
      exact absurd (List.cons.inj h).1 hd

/-! ### Cuts -/

section
variable {p : Char → Bool} (h : ∀ c, ∀ d ∈ charBytes c, p d = p c)
include h

theorem takeWhile_bytewise (cs : List Char) : (bytewise cs).takeWhile p = bytewise (cs.takeWhile p) := by
  induction cs with
  | nil => rfl
  | cons c cs ih =>
    rw [bytewise_cons]
    by_cases hp : p c = true
    · rw [List.takeWhile_append_of_pos fun d hd => (h c d hd).trans hp, ih, List.takeWhile_cons_of_pos hp,
        bytewise_cons]
    · obtain ⟨d, ds, hds⟩ := List.exists_cons_of_ne_nil (charBytes_ne_nil c)
      have hd : ¬ p d = true := by
        rwa [h c d (hds ▸ List.mem_cons_self)]
      rw [hds, List.cons_append, List.takeWhile_cons_of_neg hd, List.takeWhile_cons_of_neg hp, bytewise_nil]

theorem dropWhile_bytewise (cs : List Char) : (bytewise cs).dropWhile p = bytewise (cs.dropWhile p) := by
  induction cs with
  | nil => rfl
  | cons c cs ih =>
    rw [bytewise_cons]
    by_cases hp : p c = true
    · rw [List.dropWhile_append_of_pos fun d hd => (h c d hd).trans hp, ih, List.dropWhile_cons_of_pos hp]
    · obtain ⟨d, ds, hds⟩ := List.exists_cons_of_ne_nil (charBytes_ne_nil c)
      have hd : ¬ p d = true := by
        rwa [h c d (hds ▸ List.mem_cons_self)]
      rw [hds, List.cons_append, List.dropWhile_cons_of_neg hd, List.dropWhile_cons_of_neg hp, bytewise_cons, hds,
        List.cons_append]

end

end ClassAtlas.Text
