import ClassAtlas.Decimal.Spelling
import Mathlib.Algebra.Order.Field.Power
import Mathlib.Data.Rat.Cast.Order
import Mathlib.Tactic.FieldSimp
import Mathlib.Tactic.NormNum
import Mathlib.Tactic.Positivity
import Mathlib.Tactic.Ring

/-! Decimal numerals, and the exact numbers that they are.

A numeral is read (`read?`) by the rules of arithmetic: an optional minus sign, digits on both sides of a
point, and perhaps a power of ten behind `E`. It does not matter to the reader which of the two
layouts a number has. Digits with the point put somewhere among or beside them have the value that
the place of the point gives (`placed_eq`, `scientific_eq`), and both layouts are read as it
(`unsigned?_text`, `unsigned?_scientific`). -/
namespace ClassAtlas.Decimal.Numeral

/-! ### Digits -/

/-- Digits, and at least one of them. -/
def isDigits (cs : List Char) : Bool := !cs.isEmpty && cs.all Char.isDigit

/-- The number that digits spell. -/
def natural (ds : List Char) : Nat := Nat.ofDigitChars 10 ds 0

theorem isDigits_iff {cs : List Char} : isDigits cs ↔ cs ≠ [] ∧ ∀ c ∈ cs, c.isDigit := by
  simp [isDigits]

theorem not_mem_of_isDigits {cs : List Char} {c : Char} (h : isDigits cs) (hc : c.isDigit = false) : c ∉ cs := by
  intro hmem
  have hdigit := (isDigits_iff.1 h).2 c hmem
  rw [hc] at hdigit
  cases hdigit

theorem isDigit_of_mem_zeros {k : Nat} {c : Char} (h : c ∈ List.replicate k '0') : c.isDigit := by
  rw [List.eq_of_mem_replicate h]
  rfl

theorem natural_append_zeros (ds : List Char) (k : Nat) :
    natural (ds ++ List.replicate k '0') = natural ds * 10 ^ k := by
  rw [natural, Nat.ofDigitChars_append, Nat.ofDigitChars_replicate_zero, Nat.mul_comm, natural]

theorem natural_zeros_append (k : Nat) (ds : List Char) : natural (List.replicate k '0' ++ ds) = natural ds := by
  rw [natural, Nat.ofDigitChars_append, Nat.ofDigitChars_replicate_zero, Nat.mul_zero, natural]

theorem isDigits_toDigits (n : Nat) : isDigits (Nat.toDigits 10 n) :=
  isDigits_iff.2 ⟨Nat.toDigits_ne_nil, fun _ h => Nat.isDigit_of_mem_toDigits (by decide) (by decide) h⟩

theorem natural_toDigits (n : Nat) : natural (Nat.toDigits 10 n) = n := Nat.ofDigitChars_ten_toDigits

/-- The digits of a number other than zero do not begin with a zero. -/
theorem exists_toDigits {n : Nat} (h : 0 < n) : ∃ d ds, Nat.toDigits 10 n = d :: ds ∧ d ≠ '0' := by
  induction n using Nat.strongRecOn with
  | ind n ih =>
    by_cases hn : n < 10
    · have hall : ∀ n : Fin 10, 0 < n.val → n.val.digitChar ≠ '0' := by decide
      exact ⟨n.digitChar, [], Nat.toDigits_of_lt_base hn, hall ⟨n, hn⟩ h⟩
    · obtain ⟨d, ds, hds, hd⟩ := ih (n / 10) (by omega) (by omega)
      refine ⟨d, ds ++ [(n % 10).digitChar], ?_, hd⟩
      rw [Nat.toDigits_of_base_le (by decide) (by omega), hds, List.cons_append]

/-! ### Digits around a point -/

/-- Digits on both sides of a point. -/
structure Mantissa where
  whole : List Char
  fraction : List Char
  isDigits_whole : isDigits whole
  isDigits_fraction : isDigits fraction

namespace Mantissa

def text (m : Mantissa) : List Char := m.whole ++ '.' :: m.fraction

def value (m : Mantissa) : ℚ := natural (m.whole ++ m.fraction) / 10 ^ m.fraction.length

/-- One digit stands before the point, and it is not zero. -/
def IsNormal (m : Mantissa) : Prop := ∃ d, d ≠ '0' ∧ m.whole = [d]

theorem not_mem_text (m : Mantissa) {c : Char} (hc : c.isDigit = false) (hpoint : c ≠ '.') : c ∉ m.text := by
  rw [text, List.mem_append, List.mem_cons]
  rintro (h | h | h)
  · exact not_mem_of_isDigits m.isDigits_whole hc h
  · exact hpoint h
  · exact not_mem_of_isDigits m.isDigits_fraction hc h

end Mantissa

section Placed
variable {ds : List Char} {places : Int}

/-- Zeros stand between the point and the digits. -/
theorem placed_of_nonpos (h : isDigits ds) (hle : places ≤ 0) :
    ∃ m : Mantissa, placed ds places = m.text ∧ m.value = natural ds * 10 ^ (places - ds.length) := by
  obtain ⟨hne, hdigits⟩ := isDigits_iff.1 h
  obtain ⟨k, hk⟩ := Int.eq_ofNat_of_zero_le (a := -places) (by omega)
  have hfraction : isDigits (List.replicate k '0' ++ ds) := isDigits_iff.2
    ⟨List.append_ne_nil_of_right_ne_nil _ hne, List.forall_mem_append.2 ⟨fun _ => isDigit_of_mem_zeros, hdigits⟩⟩
  have hexponent : places - ds.length = -((k + ds.length : Nat) : Int) := by omega
  have hnatural : natural ('0' :: (List.replicate k '0' ++ ds)) = natural ds := natural_zeros_append (k + 1) ds
  refine ⟨⟨['0'], _, rfl, hfraction⟩, by rw [placed, if_pos hle, hk]; rfl, ?_⟩
  dsimp only [Mantissa.value]
  rw [List.singleton_append, hnatural, hexponent, zpow_neg, zpow_natCast, div_eq_mul_inv, List.length_append,
    List.length_replicate]

/-- Zeros stand between the digits and the point. -/
theorem placed_of_length_le (h : isDigits ds) (hpos : ¬places ≤ 0) (hle : (ds.length : Int) ≤ places) :
    ∃ m : Mantissa, placed ds places = m.text ∧ m.value = natural ds * 10 ^ (places - ds.length) := by
  obtain ⟨hne, hdigits⟩ := isDigits_iff.1 h
  obtain ⟨k, hk⟩ := Int.eq_ofNat_of_zero_le (a := places - ds.length) (by omega)
  have hzeros : places.toNat - ds.length = k := by omega
  have hwhole : isDigits (ds ++ List.replicate k '0') := isDigits_iff.2
    ⟨List.append_ne_nil_of_left_ne_nil hne _, List.forall_mem_append.2 ⟨hdigits, fun _ => isDigit_of_mem_zeros⟩⟩
  have hnatural : natural (ds ++ List.replicate k '0' ++ ['0']) = natural ds * 10 ^ (k + 1) := by
    rw [List.append_assoc, ← List.replicate_succ', natural_append_zeros]
  refine ⟨⟨_, ['0'], hwhole, rfl⟩, by rw [placed, if_neg hpos, if_pos hle, hzeros]; rfl, ?_⟩
  dsimp only [Mantissa.value]
  rw [hnatural, hk, zpow_natCast, List.length_singleton, pow_one, pow_succ]
  push_cast
  field_simp

/-- The point stands among the digits. -/
theorem placed_of_lt_length (h : isDigits ds) (hpos : ¬places ≤ 0) (hlt : ¬(ds.length : Int) ≤ places) :
    ∃ m : Mantissa, placed ds places = m.text ∧ m.value = natural ds * 10 ^ (places - ds.length) := by
  obtain ⟨-, hdigits⟩ := isDigits_iff.1 h
  obtain ⟨p, rfl⟩ := Int.eq_ofNat_of_zero_le (a := places) (by omega)
  have hwhole : isDigits (ds.take p) := by
    refine isDigits_iff.2 ⟨?_, fun c hc => hdigits c (List.mem_of_mem_take hc)⟩
    rw [← List.length_pos_iff, List.length_take]
    omega
  have hfraction : isDigits (ds.drop p) := by
    refine isDigits_iff.2 ⟨?_, fun c hc => hdigits c (List.mem_of_mem_drop hc)⟩
    rw [← List.length_pos_iff, List.length_drop]
    omega
  have hexponent : (p : Int) - ds.length = -((ds.length - p : Nat) : Int) := by omega
  refine ⟨⟨_, _, hwhole, hfraction⟩, by rw [placed, if_neg hpos, if_neg hlt]; rfl, ?_⟩
  dsimp only [Mantissa.value]
  rw [List.take_append_drop, List.length_drop, hexponent, zpow_neg, zpow_natCast, div_eq_mul_inv]

/-- The digits of a number with the point at a place are a mantissa of the value that belongs there. -/
theorem placed_eq (h : isDigits ds) (places : Int) :
    ∃ m : Mantissa, placed ds places = m.text ∧ m.value = natural ds * 10 ^ (places - ds.length) := by
  by_cases hpos : places ≤ 0
  · exact placed_of_nonpos h hpos
  · by_cases hle : (ds.length : Int) ≤ places
    · exact placed_of_length_le h hpos hle
    · exact placed_of_lt_length h hpos hle

end Placed

/-- The digits of a number with the point behind the first one. -/
theorem scientific_eq {d : Char} {ds : List Char} (h : isDigits (d :: ds)) (power : Int) :
    ∃ m : Mantissa, scientific (d :: ds) power = m.text ++ 'E' :: (toString power).toList ∧ m.whole = [d] ∧
      m.value = natural (d :: ds) / 10 ^ ds.length := by
  have hdigits := (isDigits_iff.1 h).2
  have hlead : isDigits [d] :=
    isDigits_iff.2 ⟨List.cons_ne_nil d [], List.forall_mem_singleton.2 (hdigits d List.mem_cons_self)⟩
  cases ds with
  | nil =>
    have hnatural : natural ([d] ++ ['0']) = natural [d] * 10 ^ 1 := natural_append_zeros [d] 1
    refine ⟨⟨[d], ['0'], hlead, rfl⟩, rfl, rfl, ?_⟩
    dsimp only [Mantissa.value]
    rw [hnatural]
    simp
  | cons c ds =>
    have hfraction : isDigits (c :: ds) :=
      isDigits_iff.2 ⟨List.cons_ne_nil c ds, fun x hx => hdigits x (List.mem_cons_of_mem d hx)⟩
    exact ⟨⟨[d], c :: ds, hlead, hfraction⟩, rfl, rfl, rfl⟩

/-! ### Reading -/

/-- Reads digits, a point and digits. -/
def mantissa? (cs : List Char) : Option ℚ :=
  match cs.splitOn '.' with
  | [whole, fraction] =>
    if h : isDigits whole ∧ isDigits fraction then some (Mantissa.value ⟨whole, fraction, h.1, h.2⟩) else none
  | _ => none

/-- Reads a power: digits, with a sign in front if it is negative. -/
def power? : List Char → Option Int
  | '-' :: ds => if isDigits ds then some (-natural ds) else none
  | ds => if isDigits ds then some (natural ds) else none

/-- Reads a numeral without a sign, with a power of ten behind `E` or without one. -/
def unsigned? (cs : List Char) : Option ℚ :=
  match cs.splitOn 'E' with
  | [mantissa] => mantissa? mantissa
  | [mantissa, power] => do return (← mantissa? mantissa) * 10 ^ (← power? power)
  | _ => none

/-- Reads a numeral as the exact number that it is. -/
def read? : List Char → Option ℚ
  | '-' :: cs => (unsigned? cs).map (-·)
  | cs => unsigned? cs

theorem mantissa?_text (m : Mantissa) : mantissa? m.text = some m.value := by
  have hsplit : m.text.splitOn '.' = [m.whole, m.fraction] := by
    rw [Mantissa.text, List.splitOn_append_cons_self_of_not_mem (not_mem_of_isDigits m.isDigits_whole rfl),
      List.splitOn_eq_singleton (not_mem_of_isDigits m.isDigits_fraction rfl)]
  simp [mantissa?, hsplit, m.isDigits_whole, m.isDigits_fraction]

theorem power?_digits {ds : List Char} (h : isDigits ds) (negative : Bool) :
    power? (sign negative ++ ds) = some (if negative then -(natural ds : Int) else natural ds) := by
  cases negative
  · have hsign : '-' ∉ ds := not_mem_of_isDigits h rfl
    rw [sign, if_neg (by decide), List.nil_append, power?.eq_def]
    split
    · exact absurd List.mem_cons_self hsign
    · simp [h]
  · simp [sign, power?, h]

theorem not_mem_sign (negative : Bool) {c : Char} (hc : c ≠ '-') : c ∉ sign negative := by
  cases negative <;> simp [sign, hc]

theorem toList_toString (power : Int) :
    (toString power).toList = sign (decide (power < 0)) ++ Nat.toDigits 10 power.natAbs := by
  rw [Int.toString_eq_repr, Int.repr_eq_if]
  split
  · next h =>
    rw [decide_eq_false (by omega), Nat.toList_repr, show power.toNat = power.natAbs by omega]
    rfl
  · next h =>
    rw [decide_eq_true (by omega), String.toList_append, Nat.toList_repr, show (-power).toNat = power.natAbs by omega]
    rfl

theorem power?_toString (power : Int) : power? (toString power).toList = some power := by
  rw [toList_toString, power?_digits (isDigits_toDigits _), natural_toDigits]
  congr 1
  by_cases h : power < 0
  · rw [decide_eq_true h, if_pos rfl]
    omega
  · rw [decide_eq_false h, if_neg (by decide)]
    omega

theorem unsigned?_text (m : Mantissa) : unsigned? m.text = some m.value := by
  rw [unsigned?, List.splitOn_eq_singleton (m.not_mem_text rfl (by decide))]
  exact mantissa?_text m

theorem unsigned?_scientific (m : Mantissa) (power : Int) :
    unsigned? (m.text ++ 'E' :: (toString power).toList) = some (m.value * 10 ^ power) := by
  have hpower : 'E' ∉ (toString power).toList := by
    rw [toList_toString, List.mem_append]
    rintro (h | h)
    · exact not_mem_sign _ (by decide) h
    · exact not_mem_of_isDigits (isDigits_toDigits _) rfl h
  rw [unsigned?, List.splitOn_append_cons_self_of_not_mem (m.not_mem_text rfl (by decide)),
    List.splitOn_eq_singleton hpower]
  simp only [mantissa?_text, power?_toString]
  rfl

/-- A mantissa begins with a digit, so a sign in front of it is that of the number. -/
theorem read?_sign (negative : Bool) (m : Mantissa) (rest : List Char) :
    read? (sign negative ++ (m.text ++ rest)) =
      (unsigned? (m.text ++ rest)).map fun q => if negative then -q else q := by
  cases negative
  · obtain ⟨hne, hdigits⟩ := isDigits_iff.1 m.isDigits_whole
    obtain ⟨d, ds, hwhole⟩ := List.exists_cons_of_ne_nil hne
    have hd : d ≠ '-' := by
      rintro rfl
      exact absurd (hdigits '-' (hwhole ▸ List.mem_cons_self)) (by decide)
    rw [sign, if_neg (by decide), List.nil_append, read?.eq_def]
    split
    · next heq => simp [Mantissa.text, hwhole, hd] at heq
    · simp
  · simp [sign, read?]

/-! ### Layouts -/

/-- A plain numeral: a sign or none, and digits on both sides of a point. -/
def IsPlain (cs : List Char) : Prop := ∃ negative, ∃ m : Mantissa, cs = sign negative ++ m.text

/-- A numeral with a power of ten. One digit stands before the point, and it is not zero. The power
has no plus sign, and its digits do not begin with a zero. -/
def IsScientific (cs : List Char) : Prop :=
  ∃ negative, ∃ m : Mantissa, m.IsNormal ∧ ∃ below ds, isDigits ds ∧ ds.head? ≠ some '0' ∧
    cs = sign negative ++ (m.text ++ 'E' :: (sign below ++ ds))

/-- Exactly one point, which stands between two digits. -/
def IsPointed (cs : List Char) : Prop :=
  cs.count '.' = 1 ∧
    ∃ before after, ∃ c d : Char, cs = before ++ c :: '.' :: d :: after ∧ c.isDigit ∧ d.isDigit

theorem IsPlain.not_isScientific {cs : List Char} (h : IsPlain cs) : ¬IsScientific cs := by
  have hplain : 'E' ∉ cs := by
    obtain ⟨negative, m, rfl⟩ := h
    rw [List.mem_append, not_or]
    exact ⟨not_mem_sign negative (by decide), m.not_mem_text rfl (by decide)⟩
  rintro ⟨negative, m, -, below, ds, -, -, rfl⟩
  exact hplain (by simp)

/-- A text with a mantissa in it and no other point. -/
theorem isPointed_append {before after : List Char} (hbefore : '.' ∉ before) (m : Mantissa) (hafter : '.' ∉ after) :
    IsPointed (before ++ (m.text ++ after)) := by
  obtain ⟨whole, c, hwhole⟩ := (List.eq_nil_or_concat m.whole).resolve_left (isDigits_iff.1 m.isDigits_whole).1
  obtain ⟨d, fraction, hfraction⟩ := List.exists_cons_of_ne_nil (isDigits_iff.1 m.isDigits_fraction).1
  refine ⟨?_, before ++ whole, fraction ++ after, c, d, ?_, ?_, ?_⟩
  · have hw := not_mem_of_isDigits m.isDigits_whole (c := '.') rfl
    have hf := not_mem_of_isDigits m.isDigits_fraction (c := '.') rfl
    rw [Mantissa.text, List.count_append, List.count_append, List.count_append, List.count_cons_self,
      List.count_eq_zero_of_not_mem hbefore, List.count_eq_zero_of_not_mem hw, List.count_eq_zero_of_not_mem hf,
      List.count_eq_zero_of_not_mem hafter]
  · simp [Mantissa.text, hwhole, hfraction]
  · exact (isDigits_iff.1 m.isDigits_whole).2 c (by simp [hwhole])
  · exact (isDigits_iff.1 m.isDigits_fraction).2 d (by simp [hfraction])

theorem IsPlain.isPointed {cs : List Char} (h : IsPlain cs) : IsPointed cs := by
  obtain ⟨negative, m, rfl⟩ := h
  simpa using isPointed_append (not_mem_sign negative (by decide)) m List.not_mem_nil

theorem IsScientific.isPointed {cs : List Char} (h : IsScientific cs) : IsPointed cs := by
  obtain ⟨negative, m, -, below, ds, hds, -, rfl⟩ := h
  refine isPointed_append (not_mem_sign negative (by decide)) m ?_
  rw [List.mem_cons, List.mem_append, not_or, not_or]
  exact ⟨by decide, not_mem_sign below (by decide), not_mem_of_isDigits hds rfl⟩

end ClassAtlas.Decimal.Numeral
