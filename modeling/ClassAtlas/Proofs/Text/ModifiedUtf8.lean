import ClassAtlas.Text.ModifiedUtf8
import ClassAtlas.Text.Utf8

/-! Plain UTF-8 read as the encoding of class files.

The two encodings spell a character up to U+FFFF by the same groups, but for NUL, which plain
UTF-8 writes as a single byte and reading takes as such. `decode_encode`: a text of such
characters is read back from its plain UTF-8 bytes. One group is one unit whatever follows it
(`units_encodeChar`), and a unit that is no surrogate is the character by itself. -/
namespace ClassAtlas.Text

/-- Without high surrogates each unit is a character by itself. -/
theorem Units.decode_of_not_high {us : List UInt16} (h : ∀ u ∈ us, isHigh u = false) : decode us = us.map single := by
  induction us with
  | nil => rfl
  | cons u us ih =>
    have ih := ih fun v hv => h v (List.mem_cons_of_mem u hv)
    cases us with
    | nil => rfl
    | cons v us =>
      have hu : isHigh u = false := h u List.mem_cons_self
      rw [decode, hu, Bool.false_and, if_neg Bool.false_ne_true, ih]
      rfl

namespace ModifiedUtf8

/-! ### Groups -/

theorem units_single {b : UInt8} (h : isSingle b = true) (rest : Bytes) :
    units (b :: rest) = unit1 b :: units rest := by
  have hpair : isPair b = false := by
    simp only [isSingle, isPair, decide_eq_true_eq, beq_eq_false_iff_ne] at h ⊢
    omega
  match rest with
  | [] => simp [units]
  | [c] => simp [units, hpair]
  | c :: d :: rest => simp [units, h]

theorem units_pair {b : UInt8} (h : isPair b = true) (c : UInt8) (rest : Bytes) :
    units (b :: c :: rest) = unit2 b c :: units rest := by
  have hsingle : isSingle b = false := by
    simp only [isSingle, isPair, beq_iff_eq, decide_eq_false_iff_not] at h ⊢
    omega
  match rest with
  | [] => simp [units, h]
  | d :: rest => simp [units, hsingle, h]

theorem units_triple {b : UInt8} (h : isTriple b = true) (c d : UInt8) (rest : Bytes) :
    units (b :: c :: d :: rest) = unit3 b c d :: units rest := by
  have hsingle : isSingle b = false := by
    simp only [isSingle, isTriple, beq_iff_eq, decide_eq_false_iff_not] at h ⊢
    omega
  have hpair : isPair b = false := by
    simp only [isPair, isTriple, beq_iff_eq, beq_eq_false_iff_ne] at h ⊢
    omega
  simp [units, hsingle, hpair, h]

/-! A number below `2 ^ 16` is spelled by one to three bytes, and there may be more of them than it needs. -/

theorem units_one {n : Nat} (h : n < 0x80) (rest : Bytes) :
    units (UInt8.ofNat n :: rest) = UInt16.ofNat n :: units rest := by
  have hsingle : isSingle (UInt8.ofNat n) = true := by
    simp only [isSingle, UInt8.toNat_ofNat', decide_eq_true_eq]
    omega
  rw [units_single hsingle, unit1, UInt8.toNat_ofNat', Nat.mod_eq_of_lt (by omega)]

theorem units_two {n : Nat} (h : n < 0x800) (rest : Bytes) :
    units (UInt8.ofNat (0xC0 + n / 64) :: UInt8.ofNat (0x80 + n % 64) :: rest) = UInt16.ofNat n :: units rest := by
  have hpair : isPair (UInt8.ofNat (0xC0 + n / 64)) = true := by
    simp only [isPair, UInt8.toNat_ofNat', beq_iff_eq]
    omega
  rw [units_pair hpair, unit2, UInt8.toNat_ofNat', UInt8.toNat_ofNat']
  congr 2
  omega

theorem units_three {n : Nat} (h : n < 0x10000) (rest : Bytes) :
    units (UInt8.ofNat (0xE0 + n / 4096) :: UInt8.ofNat (0x80 + n / 64 % 64) :: UInt8.ofNat (0x80 + n % 64) :: rest) =
      UInt16.ofNat n :: units rest := by
  have htriple : isTriple (UInt8.ofNat (0xE0 + n / 4096)) = true := by
    simp only [isTriple, UInt8.toNat_ofNat', beq_iff_eq]
    omega
  rw [units_triple htriple, unit3, UInt8.toNat_ofNat', UInt8.toNat_ofNat', UInt8.toNat_ofNat']
  congr 2
  omega

/-- The group of a character up to U+FFFF is one unit, the number of the character. -/
theorem units_encodeChar {c : Char} (h : c.toNat ≤ 0xFFFF) (rest : Bytes) :
    units (String.utf8EncodeChar c ++ rest) = UInt16.ofNat c.toNat :: units rest := by
  have hc : c.val.toNat = c.toNat := rfl
  simp only [String.utf8EncodeChar, hc]
  generalize c.toNat = n at h
  split
  · exact units_one (by omega) rest
  · split
    · have hlead : n / 64 % 32 + 0xC0 = 0xC0 + n / 64 := by omega
      rw [hlead, Nat.add_comm (n % 64)]
      exact units_two (by omega) rest
    · have hlead : n / 4096 % 16 + 0xE0 = 0xE0 + n / 4096 := by omega
      rw [hlead, Nat.add_comm (n / 64 % 64), Nat.add_comm (n % 64)]
      exact units_three (by omega) rest

/-! ### Texts -/

theorem units_encode {cs : List Char} (h : ∀ c ∈ cs, c.toNat ≤ 0xFFFF) :
    units (cs.flatMap String.utf8EncodeChar) = cs.map fun c => UInt16.ofNat c.toNat := by
  induction cs with
  | nil => rfl
  | cons c cs ih =>
    rw [List.flatMap_cons, units_encodeChar (h c List.mem_cons_self),
      ih fun d hd => h d (List.mem_cons_of_mem c hd), List.map_cons]

/-- A character is no surrogate, so its unit stands for it alone. -/
theorem single_toNat {c : Char} (h : c.toNat ≤ 0xFFFF) :
    Units.isHigh (UInt16.ofNat c.toNat) = false ∧ Units.single (UInt16.ofNat c.toNat) = c := by
  have hvalid : c.toNat < 0xD800 ∨ 0xDFFF < c.toNat ∧ c.toNat < 0x110000 := c.valid
  have hn : (UInt16.ofNat c.toNat).toNat = c.toNat := by
    rw [UInt16.toNat_ofNat']
    exact Nat.mod_eq_of_lt (by omega)
  have hhigh : Units.isHigh (UInt16.ofNat c.toNat) = false := by
    simp only [Units.isHigh, hn, Bool.and_eq_false_iff, decide_eq_false_iff_not]
    omega
  have hlow : Units.isLow (UInt16.ofNat c.toNat) = false := by
    simp only [Units.isLow, hn, Bool.and_eq_false_iff, decide_eq_false_iff_not]
    omega
  refine ⟨hhigh, ?_⟩
  simp only [Units.single, hhigh, hlow, hn, Bool.or_self, Bool.false_eq_true, if_false, Char.ofNat_toNat]

theorem decode_units {cs : List Char} (h : ∀ c ∈ cs, c.toNat ≤ 0xFFFF) :
    Units.decode (cs.map fun c => UInt16.ofNat c.toNat) = cs := by
  rw [Units.decode_of_not_high, List.map_map]
  · exact (List.map_congr_left fun c hc => (single_toNat (h c hc)).2).trans (List.map_id cs)
  · intro u hu
    obtain ⟨c, hc, rfl⟩ := List.mem_map.1 hu
    exact (single_toNat (h c hc)).1

/-- **A text of characters up to U+FFFF is read back from its plain UTF-8 bytes.** -/
theorem decode_encode {s : String} (h : ∀ c ∈ s.toList, c.toNat ≤ 0xFFFF) : decode (Utf8.encode s) = s := by
  rw [decode, Utf8.encode, units_encode h, decode_units h, String.ofList_toList]

end ModifiedUtf8
end ClassAtlas.Text
