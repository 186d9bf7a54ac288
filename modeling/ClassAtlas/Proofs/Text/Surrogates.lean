import ClassAtlas.ClassFile.Draft
import ClassAtlas.Proofs.Text.Bytewise
import ClassAtlas.Proofs.Text.ModifiedUtf8

/-! The encoding of class files and plain UTF-8.

What is written in the encoding of class files is read back: the bytes of a unit are read as that unit
whatever follows (`units_encodeUnit`), and the units of a character as that character (`decode_encodeChar`),
where a pair of surrogates is joined and no unit of another character can be taken for one.

In plain UTF-8 a character above U+FFFF is a single group of four bytes. None of these starts a group that
reading knows, so the character comes out as four (`decode_plain`), and a text with such a character is
never read back. -/
namespace ClassAtlas.Text

namespace Units

theorem decode_cons_of_not_high {u : UInt16} (h : isHigh u = false) (us : List UInt16) :
    decode (u :: us) = single u :: decode us := by
  cases us with
  | nil => rfl
  | cons v us => rw [decode, h, Bool.false_and, if_neg Bool.false_ne_true]

theorem decode_cons_of_pair {u v : UInt16} (hu : isHigh u = true) (hv : isLow v = true) (us : List UInt16) :
    decode (u :: v :: us) = pair u v :: decode us := by
  rw [decode, hu, hv, Bool.and_self, if_pos rfl]

/-- The two surrogates of a character are joined. -/
theorem decode_pair {c : Char} (h : 0x10000 ≤ c.toNat) (us : List UInt16) :
    decode (UInt16.ofNat (0xD800 + (c.toNat - 0x10000) / 0x400) ::
      UInt16.ofNat (0xDC00 + (c.toNat - 0x10000) % 0x400) :: us) = c :: decode us := by
  have hvalid : c.toNat < 0xD800 ∨ 0xDFFF < c.toNat ∧ c.toNat < 0x110000 := c.valid
  obtain ⟨high, hhigh⟩ : ∃ n, n = (c.toNat - 0x10000) / 0x400 := ⟨_, rfl⟩
  obtain ⟨low, hlow⟩ : ∃ n, n = (c.toNat - 0x10000) % 0x400 := ⟨_, rfl⟩
  have hu : (UInt16.ofNat (0xD800 + high)).toNat = 0xD800 + high := by
    rw [UInt16.toNat_ofNat']
    exact Nat.mod_eq_of_lt (by omega)
  have hv : (UInt16.ofNat (0xDC00 + low)).toNat = 0xDC00 + low := by
    rw [UInt16.toNat_ofNat']
    exact Nat.mod_eq_of_lt (by omega)
  rw [← hhigh, ← hlow, decode_cons_of_pair]
  · have hc : 0x10000 + (0xD800 + high - 0xD800) * 0x400 + (0xDC00 + low - 0xDC00) = c.toNat := by
      omega
    rw [pair, hu, hv, hc, Char.ofNat_toNat]
  · simp only [isHigh, hu, Bool.and_eq_true, decide_eq_true_eq]
    omega
  · simp only [isLow, hv, Bool.and_eq_true, decide_eq_true_eq]
    omega

/-- The units of a character are read as it, whatever follows. -/
theorem decode_encodeChar (c : Char) (us : List UInt16) : decode (encodeChar c ++ us) = c :: decode us := by
  unfold encodeChar
  split
  · rename_i hc
    obtain ⟨hhigh, hsingle⟩ := ModifiedUtf8.single_toNat (Nat.le_of_lt_succ hc)
    rw [List.singleton_append, decode_cons_of_not_high hhigh, hsingle]
  · rename_i hc
    exact decode_pair (Nat.le_of_not_lt hc) us

theorem decode_encodeChars (cs : List Char) : decode (cs.flatMap encodeChar) = cs := by
  induction cs with
  | nil => rfl
  | cons c cs ih => rw [List.flatMap_cons, decode_encodeChar, ih]

end Units

namespace ModifiedUtf8

/-! ### The encoding of class files -/

/-- The bytes of a unit are read as it, whatever follows. -/
theorem units_encodeUnit (u : UInt16) (rest : Bytes) : units (encodeUnit u ++ rest) = u :: units rest := by
  have hu := u.toNat_lt
  have hof : UInt16.ofNat u.toNat = u := UInt16.ofNat_toNat
  unfold encodeUnit
  dsimp only
  split
  · rw [List.singleton_append, units_one (by omega), hof]
  · split
    · rw [List.cons_append, List.singleton_append, units_two (by omega), hof]
    · rw [List.cons_append, List.cons_append, List.singleton_append, units_three hu, hof]

theorem units_encodeUnits (us : List UInt16) : units (us.flatMap encodeUnit) = us := by
  induction us with
  | nil => rfl
  | cons u us ih => rw [List.flatMap_cons, units_encodeUnit, ih]

theorem decode_written (s : String) : decode (encode s) = s := by
  rw [decode, encode, ← List.flatMap_assoc, units_encodeUnits, Units.decode_encodeChars, String.ofList_toList]

/-! ### Plain UTF-8 -/

/-- A byte that starts no group of two or three is a unit by itself. -/
theorem units_alone {b : UInt8} (hpair : isPair b = false) (htriple : isTriple b = false) (rest : Bytes) :
    units (b :: rest) = unit1 b :: units rest := by
  match rest with
  | [] => rfl
  | [c] => simp [units, hpair]
  | c :: d :: rest => simp [units, hpair, htriple]

theorem units_all_alone {bs : Bytes} (h : ∀ b ∈ bs, isPair b = false ∧ isTriple b = false) (rest : Bytes) :
    units (bs ++ rest) = bs.map unit1 ++ units rest := by
  induction bs with
  | nil => rfl
  | cons b bs ih =>
    obtain ⟨hpair, htriple⟩ := h b List.mem_cons_self
    rw [List.cons_append, units_alone hpair htriple, ih fun d hd => h d (List.mem_cons_of_mem b hd), List.map_cons,
      List.cons_append]

/-- None of the four bytes of a character above U+FFFF starts a group. -/
theorem encodeChar_of_supplementary {c : Char} (h : 0xFFFF < c.toNat) :
    ∀ b ∈ String.utf8EncodeChar c, isPair b = false ∧ isTriple b = false := by
  have hvalid : c.toNat < 0xD800 ∨ 0xDFFF < c.toNat ∧ c.toNat < 0x110000 := c.valid
  have hc : c.val.toNat = c.toNat := rfl
  simp only [String.utf8EncodeChar, hc]
  generalize c.toNat = n at *
  rw [if_neg (by omega), if_neg (by omega), if_neg (by omega)]
  simp only [List.forall_mem_cons, isPair, isTriple, UInt8.toNat_ofNat', beq_eq_false_iff_ne]
  refine ⟨?_, ?_, ?_, ?_, List.forall_mem_nil _⟩ <;> omega

/-- What a character is read as from plain UTF-8: itself, or its bytes. -/
def readPlain (c : Char) : List Char := if c.toNat ≤ 0xFFFF then [c] else charBytes c

/-- The units of a character in plain UTF-8. -/
def plainUnits (c : Char) : List UInt16 :=
  if c.toNat ≤ 0xFFFF then [UInt16.ofNat c.toNat] else (String.utf8EncodeChar c).map unit1

theorem units_plain (cs : List Char) : units (cs.flatMap String.utf8EncodeChar) = cs.flatMap plainUnits := by
  induction cs with
  | nil => rfl
  | cons c cs ih =>
    rw [List.flatMap_cons, List.flatMap_cons, plainUnits]
    split
    · rename_i hc
      rw [units_encodeChar hc, ih, List.singleton_append]
    · rename_i hc
      rw [units_all_alone (encodeChar_of_supplementary (Nat.lt_of_not_le hc)), ih]

theorem toNat_unit1 (b : UInt8) : (unit1 b).toNat = b.toNat := by
  have hb := b.toNat_lt
  rw [unit1, UInt16.toNat_ofNat']
  exact Nat.mod_eq_of_lt (by omega)

/-- The unit of a byte is no surrogate. -/
theorem single_unit1 (b : UInt8) :
    Units.isHigh (unit1 b) = false ∧ Units.single (unit1 b) = Char.ofNat b.toNat := by
  have hb := b.toNat_lt
  have hhigh : Units.isHigh (unit1 b) = false := by
    simp only [Units.isHigh, toNat_unit1, Bool.and_eq_false_iff, decide_eq_false_iff_not]
    omega
  have hlow : Units.isLow (unit1 b) = false := by
    simp only [Units.isLow, toNat_unit1, Bool.and_eq_false_iff, decide_eq_false_iff_not]
    omega
  refine ⟨hhigh, ?_⟩
  rw [Units.single, hhigh, hlow, toNat_unit1, Bool.or_self, if_neg Bool.false_ne_true]

theorem isHigh_plainUnits (c : Char) : ∀ u ∈ plainUnits c, Units.isHigh u = false := by
  intro u hu
  unfold plainUnits at hu
  split at hu
  · rename_i hc
    rw [List.mem_singleton.1 hu]
    exact (single_toNat hc).1
  · obtain ⟨b, _, rfl⟩ := List.mem_map.1 hu
    exact (single_unit1 b).1

theorem map_single_plainUnits (c : Char) : (plainUnits c).map Units.single = readPlain c := by
  unfold plainUnits readPlain
  split
  · rename_i hc
    rw [List.map_singleton, (single_toNat hc).2]
  · rw [List.map_map]
    exact List.map_congr_left fun b _ => (single_unit1 b).2

/-- What plain UTF-8 is read as: a character above U+FFFF falls apart into its bytes. -/
theorem decode_plain (s : String) : decode (Utf8.encode s) = String.ofList (s.toList.flatMap readPlain) := by
  have hhigh : ∀ u ∈ s.toList.flatMap plainUnits, Units.isHigh u = false := by
    intro u hu
    obtain ⟨c, _, hc⟩ := List.mem_flatMap.1 hu
    exact isHigh_plainUnits c u hc
  rw [decode, Utf8.encode, units_plain, Units.decode_of_not_high hhigh, List.map_flatMap]
  simp only [map_single_plainUnits]

/-- Only a text of characters up to U+FFFF is read as itself: any other character is read as one below 256. -/
theorem le_of_flatMap_readPlain {cs : List Char} (h : cs.flatMap readPlain = cs) : ∀ c ∈ cs, c.toNat ≤ 0xFFFF := by
  induction cs with
  | nil => exact fun c hc => absurd hc List.not_mem_nil
  | cons c cs ih =>
    rw [List.flatMap_cons] at h
    by_cases hc : c.toNat ≤ 0xFFFF
    · rw [readPlain, if_pos hc, List.singleton_append] at h
      exact List.forall_mem_cons.2 ⟨hc, ih (List.cons.inj h).2⟩
    · obtain ⟨d, ds, hds⟩ := List.exists_cons_of_ne_nil (charBytes_ne_nil c)
      rw [readPlain, if_neg hc, hds, List.cons_append] at h
      obtain ⟨b, _, hb⟩ := List.mem_map.1 (show d ∈ charBytes c from hds ▸ List.mem_cons_self)
      have hbyte : c.toNat = b.toNat := by
        rw [← (List.cons.inj h).1, ← hb, toNat_ofByte]
      have := b.toNat_lt
      omega

/-- **The encoding of class files is read back for every text. The plain UTF-8 that a draft writes is read back
exactly for the texts without a character above U+FFFF.** -/
theorem decode_encodings (s : String) :
    decode (encode s) = s ∧
    (ClassFile.Constant.utf8 s).payload.drop 2 = s.toUTF8.data.toList ∧
    (decode s.toUTF8.data.toList = s ↔ ∀ c ∈ s.toList, c.toNat ≤ 0xFFFF) := by
  rw [Utf8.toList_toUTF8]
  refine ⟨decode_written s, rfl, ?_, decode_encode⟩
  intro h
  rw [decode_plain] at h
  exact le_of_flatMap_readPlain (String.ofList_injective (h.trans String.ofList_toList.symm))

/-! NUL takes two bytes, and a character above U+FFFF six. -/

example : encode (String.singleton (Char.ofNat 0)) = [0xC0, 0x80] := by decide

example : encode "😀" = [0xED, 0xA0, 0xBD, 0xED, 0xB8, 0x80] := by decide

end ModifiedUtf8
end ClassAtlas.Text
