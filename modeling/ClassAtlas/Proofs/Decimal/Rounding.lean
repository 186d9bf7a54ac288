import ClassAtlas.Decimal.Shortest
import Mathlib.Algebra.Order.Field.Power
import Mathlib.Data.Rat.Cast.Order
import Mathlib.Tactic.Linarith
import Mathlib.Tactic.LinearCombination
import Mathlib.Tactic.NormNum
import Mathlib.Tactic.Positivity
import Mathlib.Tactic.Ring

/-! Rounding to a binary format, in exact arithmetic.

Without its sign a pattern is a *magnitude*. Magnitudes are numbered in the order of the numbers that
they stand for (`strictMono_magnitude`), and each is one unit in the last place below the next
(`magnitude_succ`). Rounding goes to the nearest magnitude, and to the even one of two that are equally
near. It does so as if exponents had no upper end, and what comes out beyond the greatest exponent is
the infinity (`RoundsTo`). A number rounds to one pattern only (`RoundsTo.unique`).

The reals that round to a magnitude are an interval around its number (`isNearest_iff`). Decoding a
pattern tells its sign and what its magnitude is (`decode_pattern`). -/
namespace ClassAtlas.Decimal

namespace Binary

/-- The number itself. -/
def value (b : Binary) : ℚ := b.significand * 2 ^ b.exponent

/-- The distance to the neighbour above. -/
def unit (b : Binary) : ℚ := 2 ^ b.exponent

/-- The distance to the neighbour below. -/
def gap (b : Binary) : ℚ := if b.narrow then b.unit / 2 else b.unit

/-- The reals that round to the number: up to half the distance to each neighbour. -/
def Holds (b : Binary) (x : ℚ) : Prop :=
  if b.closed then b.value - b.gap / 2 ≤ x ∧ x ≤ b.value + b.unit / 2
  else b.value - b.gap / 2 < x ∧ x < b.value + b.unit / 2

theorem unit_pos (b : Binary) : 0 < b.unit := by
  unfold unit
  positivity

theorem gap_pos (b : Binary) : 0 < b.gap := by
  have := b.unit_pos
  unfold gap
  split <;> linarith

end Binary

namespace Ieee.Format
variable (f : Format)

/-! ### Magnitudes -/

/-- The number of magnitudes, the infinite one and those that stand for no number included. -/
def magnitudes : Nat := 2 ^ (f.fractionBits + f.exponentBits)

/-- The number of patterns. -/
def patterns : Nat := 2 * f.magnitudes

example : single.patterns = 2 ^ 32 ∧ double.patterns = 2 ^ 64 := by decide

/-- The pattern with a sign and a magnitude. -/
def pattern (negative : Bool) (m : Nat) : Nat := if negative then f.magnitudes + m else m

/-- The infinite magnitude, the first one with the greatest exponent. -/
def infinity : Nat := (2 ^ f.exponentBits - 1) * 2 ^ f.fractionBits

/-- The binary number with the exponent and the fraction of a magnitude. -/
def binary (m : Nat) : Binary :=
  let fraction := m % 2 ^ f.fractionBits
  let exponent := m / 2 ^ f.fractionBits
  if exponent = 0 then ⟨fraction, 1 - (f.offset : Int), false⟩
  else ⟨2 ^ f.fractionBits + fraction, (exponent : Int) - f.offset, fraction == 0 && exponent != 1⟩

/-- The number that a magnitude stands for. Here exponents have no upper end. -/
def magnitude (m : Nat) : ℚ := (f.binary m).value

theorem binary_mul_add (exponent : Nat) {fraction : Nat} (h : fraction < 2 ^ f.fractionBits) :
    f.binary (2 ^ f.fractionBits * exponent + fraction) =
      if exponent = 0 then ⟨fraction, 1 - (f.offset : Int), false⟩
      else ⟨2 ^ f.fractionBits + fraction, (exponent : Int) - f.offset, fraction == 0 && exponent != 1⟩ := by
  have hdiv : (2 ^ f.fractionBits * exponent + fraction) / 2 ^ f.fractionBits = exponent := by
    rw [Nat.mul_add_div (by positivity), Nat.div_eq_of_lt h, Nat.add_zero]
  have hmod : (2 ^ f.fractionBits * exponent + fraction) % 2 ^ f.fractionBits = fraction := by
    rw [Nat.mul_add_mod, Nat.mod_eq_of_lt h]
  simp only [binary, hdiv, hmod]

/-- The next magnitude has the next significand, or the least one with the next exponent. -/
theorem binary_succ (m : Nat) :
    f.binary (m + 1) = ⟨(f.binary m).significand + 1, (f.binary m).exponent, false⟩ ∨
      (f.binary m).significand + 1 = 2 * 2 ^ f.fractionBits ∧
        f.binary (m + 1) = ⟨2 ^ f.fractionBits, (f.binary m).exponent + 1, true⟩ := by
  have hm := Nat.div_add_mod m (2 ^ f.fractionBits)
  have hr : m % 2 ^ f.fractionBits < 2 ^ f.fractionBits := Nat.mod_lt _ (by positivity)
  generalize m / 2 ^ f.fractionBits = exponent at hm
  generalize m % 2 ^ f.fractionBits = fraction at hm hr
  subst hm
  rw [binary_mul_add f exponent hr]
  by_cases hlast : fraction + 1 < 2 ^ f.fractionBits
  · left
    rw [Nat.add_assoc, binary_mul_add f exponent hlast]
    split
    · rfl
    · simp [Nat.add_assoc]
  · -- The fraction is used up, and the exponent grows unless it was the one of the least numbers.
    have hfull : 2 ^ f.fractionBits = fraction + 1 := by omega
    have hnext : 2 ^ f.fractionBits * exponent + fraction + 1 = 2 ^ f.fractionBits * (exponent + 1) + 0 := by
      rw [Nat.mul_succ]
      omega
    rw [hnext, binary_mul_add f (exponent + 1) (by positivity), hfull, if_neg (Nat.succ_ne_zero exponent)]
    by_cases hzero : exponent = 0
    · left
      simp [hzero]
    · right
      rw [if_neg hzero]
      refine ⟨by dsimp only; omega, ?_⟩
      simp only [Nat.add_zero, Nat.cast_add, Nat.cast_one, Binary.mk.injEq, true_and]
      refine ⟨by omega, by simp [hzero]⟩

theorem magnitude_succ (m : Nat) : f.magnitude (m + 1) = f.magnitude m + (f.binary m).unit := by
  obtain h | ⟨hlast, h⟩ := f.binary_succ m
  · simp only [magnitude, Binary.value, Binary.unit, h]
    push_cast
    ring
  · have hcast : ((f.binary m).significand : ℚ) + 1 = 2 * 2 ^ f.fractionBits := by exact_mod_cast hlast
    simp only [magnitude, Binary.value, Binary.unit, h]
    rw [zpow_add_one₀ two_ne_zero]
    push_cast
    linear_combination -hcast * 2 ^ (f.binary m).exponent

theorem gap_succ (m : Nat) : (f.binary (m + 1)).gap = (f.binary m).unit := by
  obtain h | ⟨-, h⟩ := f.binary_succ m
  · simp [Binary.gap, Binary.unit, h]
  · simp [Binary.gap, Binary.unit, h, zpow_add_one₀]

theorem strictMono_magnitude : StrictMono f.magnitude := by
  refine strictMono_nat_of_lt_succ fun m => ?_
  rw [magnitude_succ]
  exact lt_add_of_pos_right _ (f.binary m).unit_pos

theorem magnitude_zero : f.magnitude 0 = 0 := by
  simp [magnitude, binary, Binary.value]

/-- The last bit of a magnitude is the last one of its significand. -/
theorem closed_binary (h : 0 < f.fractionBits) (m : Nat) : (f.binary m).closed ↔ m % 2 = 0 := by
  have heven : 2 ∣ 2 ^ f.fractionBits := dvd_pow_self 2 h.ne'
  have hmod : m % 2 ^ f.fractionBits % 2 = m % 2 := Nat.mod_mod_of_dvd m heven
  rw [Binary.closed, beq_iff_eq, binary]
  split
  · rw [hmod]
  · show (2 ^ f.fractionBits + m % 2 ^ f.fractionBits) % 2 = 0 ↔ m % 2 = 0
    rw [← hmod]
    omega

/-! ### The nearest magnitude -/

/-- `m` is the magnitude nearest to `x`, and the even one of two that are equally near. -/
structure IsNearest (x : ℚ) (m : Nat) : Prop where
  le (k : Nat) : |f.magnitude m - x| ≤ |f.magnitude k - x|
  even {k : Nat} : k ≠ m → |f.magnitude k - x| = |f.magnitude m - x| → m % 2 = 0

/-- Of two numbers the upper one is no farther from what is not below their middle. -/
theorem upper_nearer_iff {a b : ℚ} (h : a < b) (x : ℚ) : |b - x| ≤ |a - x| ↔ a + b ≤ 2 * x := by
  constructor
  · intro hle
    by_contra hlt
    rcases abs_cases (b - x) with hb | hb <;> rcases abs_cases (a - x) with ha | ha <;> linarith
  · intro hle
    rcases abs_cases (b - x) with hb | hb <;> rcases abs_cases (a - x) with ha | ha <;> linarith

theorem lower_nearer_iff {a b : ℚ} (h : a < b) (x : ℚ) : |a - x| ≤ |b - x| ↔ 2 * x ≤ a + b := by
  have hmirror := upper_nearer_iff (neg_lt_neg h) (-x)
  rw [neg_sub_neg, neg_sub_neg, abs_sub_comm x, abs_sub_comm x] at hmirror
  rw [hmirror]
  constructor <;> intro hle <;> linarith

variable {f} {x : ℚ} {m k : Nat}

/-- No two magnitudes are nearest, for between two even ones there is another. -/
theorem IsNearest.le_of_le (hm : f.IsNearest x m) (hk : f.IsNearest x k) : m ≤ k := by
  by_contra hlt
  have heq : |f.magnitude m - x| = |f.magnitude k - x| := le_antisymm (hm.le k) (hk.le m)
  have hmeven := hm.even (by omega) heq.symm
  have hkeven := hk.even (by omega) heq
  have hlower : f.magnitude k < f.magnitude (k + 1) := f.strictMono_magnitude (by omega)
  have hupper : f.magnitude (k + 1) < f.magnitude m := f.strictMono_magnitude (by omega)
  have hmiddle := (upper_nearer_iff (hlower.trans hupper) x).1 (hm.le k)
  have hnext := (lower_nearer_iff hlower x).1 (hk.le (k + 1))
  linarith

theorem IsNearest.unique (hm : f.IsNearest x m) (hk : f.IsNearest x k) : m = k :=
  Nat.le_antisymm (hm.le_of_le hk) (hk.le_of_le hm)

/-- A magnitude is nearest between the middles to its two neighbours. An odd one is not at the middles. -/
theorem isNearest_succ_iff :
    f.IsNearest x (m + 1) ↔
      f.magnitude m + f.magnitude (m + 1) ≤ 2 * x ∧ 2 * x ≤ f.magnitude (m + 1) + f.magnitude (m + 2) ∧
        (f.magnitude m + f.magnitude (m + 1) = 2 * x ∨ 2 * x = f.magnitude (m + 1) + f.magnitude (m + 2) →
          (m + 1) % 2 = 0) := by
  have hmono := f.strictMono_magnitude
  have hbelow : f.magnitude m < f.magnitude (m + 1) := hmono (by omega)
  have habove : f.magnitude (m + 1) < f.magnitude (m + 2) := hmono (by omega)
  constructor
  · intro h
    refine ⟨(upper_nearer_iff hbelow x).1 (h.le m), (lower_nearer_iff habove x).1 (h.le (m + 2)), ?_⟩
    rintro (hmiddle | hmiddle)
    · exact h.even (k := m) (by omega) (le_antisymm ((lower_nearer_iff hbelow x).2 hmiddle.ge) (h.le m))
    · exact h.even (k := m + 2) (by omega)
        (le_antisymm ((upper_nearer_iff habove x).2 hmiddle.ge) (h.le (m + 2)))
  · rintro ⟨hlow, hhigh, heven⟩
    -- Every other magnitude is at least as far away as the neighbour on its side.
    refine ⟨fun k => ?_, fun {k} hne heq => ?_⟩
    · obtain hk | rfl | hk := lt_trichotomy k (m + 1)
      · have hle : f.magnitude k ≤ f.magnitude m := hmono.monotone (by omega)
        exact (upper_nearer_iff (hmono hk) x).2 (by linarith)
      · exact le_rfl
      · have hle : f.magnitude (m + 2) ≤ f.magnitude k := hmono.monotone (by omega)
        exact (lower_nearer_iff (hmono hk) x).2 (by linarith)
    · obtain hk | hk := Nat.lt_or_gt_of_ne hne
      · have hle : f.magnitude k ≤ f.magnitude m := hmono.monotone (by omega)
        have hmiddle := (lower_nearer_iff (hmono hk) x).1 heq.le
        exact heven (.inl (by linarith))
      · have hle : f.magnitude (m + 2) ≤ f.magnitude k := hmono.monotone (by omega)
        have hmiddle := (upper_nearer_iff (hmono hk) x).1 heq.le
        exact heven (.inr (by linarith))

/-- The reals that round to a magnitude other than zero are those that its number holds. -/
theorem isNearest_iff (hf : 0 < f.fractionBits) (hm : 0 < m) : f.IsNearest x m ↔ (f.binary m).Holds x := by
  obtain ⟨m, rfl⟩ := Nat.exists_eq_add_one_of_ne_zero hm.ne'
  have hbelow := f.magnitude_succ m
  have habove := f.magnitude_succ (m + 1)
  have hgap := f.gap_succ m
  have hvalue : (f.binary (m + 1)).value = f.magnitude (m + 1) := rfl
  have hclosed := f.closed_binary hf (m + 1)
  rw [isNearest_succ_iff, Binary.Holds]
  split
  · next heven =>
    constructor
    · rintro ⟨hlow, hhigh, -⟩
      constructor <;> linarith
    · rintro ⟨hlow, hhigh⟩
      exact ⟨by linarith, by linarith, fun _ => hclosed.1 heven⟩
  · next hodd =>
    constructor
    · rintro ⟨hlow, hhigh, heven⟩
      constructor
      · refine lt_of_not_ge fun hx => hodd (hclosed.2 (heven (.inl ?_)))
        linarith
      · refine lt_of_not_ge fun hx => hodd (hclosed.2 (heven (.inr ?_)))
        linarith
    · rintro ⟨hlow, hhigh⟩
      refine ⟨by linarith, by linarith, ?_⟩
      rintro (hmiddle | hmiddle) <;> linarith

/-! ### Patterns -/

section Patterns
variable (f)

/-- Whether a pattern stands for a number. -/
def IsFinite (bits : Nat) : Prop := bits % f.magnitudes < f.infinity

/-- The number that a finite pattern stands for. -/
def number (bits : Nat) : ℚ :=
  if f.magnitudes ≤ bits then -f.magnitude (bits % f.magnitudes) else f.magnitude (bits % f.magnitudes)

theorem exists_pattern {bits : Nat} (h : bits < f.patterns) :
    ∃ negative, ∃ m < f.magnitudes, bits = f.pattern negative m := by
  have hpos : 0 < f.magnitudes := by
    unfold magnitudes
    positivity
  by_cases hneg : f.magnitudes ≤ bits
  · refine ⟨true, bits - f.magnitudes, ?_, ?_⟩
    · unfold patterns at h
      omega
    · exact (Nat.add_sub_cancel' hneg).symm
  · exact ⟨false, bits, by omega, rfl⟩

theorem pattern_mod (negative : Bool) {m : Nat} (hm : m < f.magnitudes) :
    f.pattern negative m % f.magnitudes = m := by
  cases negative <;> simp [pattern, Nat.mod_eq_of_lt hm]

theorem pattern_div (negative : Bool) {m : Nat} (hm : m < f.magnitudes) :
    f.pattern negative m / f.magnitudes = negative.toNat := by
  cases negative
  · exact Nat.div_eq_of_lt hm
  · rw [pattern, if_pos rfl, Nat.add_div_left m (by omega), Nat.div_eq_of_lt hm]
    rfl

theorem magnitudes_le_pattern (negative : Bool) {m : Nat} (hm : m < f.magnitudes) :
    f.magnitudes ≤ f.pattern negative m ↔ negative = true := by
  cases negative
  · simpa [pattern] using hm
  · simp [pattern]

theorem pattern_inj {negative negative' : Bool} {m m' : Nat} (hm : m < f.magnitudes) (hm' : m' < f.magnitudes) :
    f.pattern negative m = f.pattern negative' m' ↔ negative = negative' ∧ m = m' := by
  constructor
  · intro h
    have hsign := f.magnitudes_le_pattern negative hm
    rw [h, f.magnitudes_le_pattern negative' hm'] at hsign
    have hmod := congrArg (· % f.magnitudes) h
    simp only [pattern_mod, hm, hm'] at hmod
    exact ⟨(Bool.eq_iff_iff.2 hsign).symm, hmod⟩
  · rintro ⟨rfl, rfl⟩
    rfl

theorem number_pattern (negative : Bool) {m : Nat} (hm : m < f.magnitudes) :
    f.number (f.pattern negative m) = if negative then -f.magnitude m else f.magnitude m := by
  simp only [number, f.pattern_mod negative hm, f.magnitudes_le_pattern negative hm]

theorem magnitude_nonneg (m : Nat) : 0 ≤ f.magnitude m :=
  f.magnitude_zero ▸ f.strictMono_magnitude.monotone (Nat.zero_le m)

theorem abs_number_pattern (negative : Bool) {m : Nat} (hm : m < f.magnitudes) :
    |f.number (f.pattern negative m)| = f.magnitude m := by
  rw [f.number_pattern negative hm]
  cases negative <;> simp [abs_of_nonneg (f.magnitude_nonneg m)]

theorem infinity_lt_magnitudes : f.infinity < f.magnitudes := by
  rw [infinity, magnitudes, Nat.pow_add, Nat.mul_comm]
  exact Nat.mul_lt_mul_of_pos_left (Nat.sub_lt (by positivity) one_pos) (by positivity)

theorem exponent_lt {m : Nat} (hm : m < f.magnitudes) : m / 2 ^ f.fractionBits < 2 ^ f.exponentBits := by
  rw [Nat.div_lt_iff_lt_mul (by positivity), ← Nat.pow_add, Nat.add_comm]
  exact hm

theorem infinity_le_iff {m : Nat} (hm : m < f.magnitudes) :
    f.infinity ≤ m ↔ m / 2 ^ f.fractionBits = 2 ^ f.exponentBits - 1 := by
  have hlt := f.exponent_lt hm
  rw [infinity, ← Nat.le_div_iff_mul_le (by positivity)]
  omega

theorem eq_infinity_iff {m : Nat} (h : m / 2 ^ f.fractionBits = 2 ^ f.exponentBits - 1) :
    m = f.infinity ↔ m % 2 ^ f.fractionBits = 0 := by
  have hm := Nat.div_add_mod m (2 ^ f.fractionBits)
  rw [h, Nat.mul_comm] at hm
  rw [infinity]
  omega

theorem pattern_fraction (negative : Bool) (m : Nat) :
    f.pattern negative m % 2 ^ f.fractionBits = m % 2 ^ f.fractionBits := by
  cases negative
  · rfl
  · rw [pattern, if_pos rfl, magnitudes, Nat.pow_add, Nat.mul_add_mod]

theorem pattern_exponent (negative : Bool) {m : Nat} (hm : m < f.magnitudes) :
    f.pattern negative m / 2 ^ f.fractionBits % 2 ^ f.exponentBits = m / 2 ^ f.fractionBits := by
  have hlt := Nat.mod_eq_of_lt (f.exponent_lt hm)
  cases negative
  · exact hlt
  · rw [pattern, if_pos rfl, magnitudes, Nat.pow_add, Nat.mul_add_div (by positivity), Nat.add_mod_left, hlt]

/-- Decoding a pattern, by its sign and its magnitude. -/
theorem decode_pattern (negative : Bool) {m : Nat} (hm : m < f.magnitudes) :
    f.decode (f.pattern negative m) =
      if m < f.infinity then if m = 0 then .zero negative else .finite negative (f.binary m)
      else if m = f.infinity then .infinite negative else .nan := by
  have hsign : (f.pattern negative m / 2 ^ (f.fractionBits + f.exponentBits) % 2 == 1) = negative := by
    have hdiv := f.pattern_div negative hm
    rw [magnitudes] at hdiv
    rw [hdiv]
    cases negative <;> rfl
  have hinfinity := f.infinity_le_iff hm
  simp only [decode, Nat.pow_eq, f.pattern_fraction negative m, f.pattern_exponent negative hm, hsign]
  by_cases htop : m / 2 ^ f.fractionBits = 2 ^ f.exponentBits - 1
  · have hinfinite : ¬m < f.infinity := by omega
    rw [if_pos htop, if_neg hinfinite]
    simp only [f.eq_infinity_iff htop]
  · have hfinite : m < f.infinity := by omega
    rw [if_neg htop, if_pos hfinite]
    by_cases hzero : m / 2 ^ f.fractionBits = 0
    · have hm := Nat.div_add_mod m (2 ^ f.fractionBits)
      rw [hzero, Nat.mul_zero, Nat.zero_add] at hm
      simp only [binary, hzero, if_true, hm]
    · have hne : m ≠ 0 := by
        rintro rfl
        exact hzero (Nat.zero_div _)
      simp only [binary, hzero, hne, if_false]

/-- What a number rounds to: the nearest magnitude with the sign of the number, and the infinite one
instead of those beyond it. -/
def RoundsTo (q : ℚ) (bits : Nat) : Prop :=
  ∃ m, f.IsNearest |q| m ∧ bits = f.pattern (decide (q < 0)) (min m f.infinity)

end Patterns

/-- A number rounds to one pattern only. -/
theorem IsNearest.roundsTo_iff {q : ℚ} (h : f.IsNearest |q| m) (bits : Nat) :
    f.RoundsTo q bits ↔ bits = f.pattern (decide (q < 0)) (min m f.infinity) := by
  constructor
  · rintro ⟨k, hk, rfl⟩
    rw [hk.unique h]
  · intro hbits
    exact ⟨m, h, hbits⟩

/-- A number that rounds to a finite pattern is nearest to its magnitude. -/
theorem RoundsTo.isNearest {q : ℚ} {negative : Bool} (h : f.RoundsTo q (f.pattern negative m))
    (hm : m < f.infinity) :
    f.IsNearest |q| m := by
  obtain ⟨k, hk, hbits⟩ := h
  have hlt := f.infinity_lt_magnitudes
  have hmin := ((f.pattern_inj (hm.trans hlt) ((min_le_right k _).trans_lt hlt)).1 hbits).2
  have heq : m = k := by omega
  exact heq ▸ hk

theorem RoundsTo.unique {q : ℚ} {bits bits' : Nat} (h : f.RoundsTo q bits) (h' : f.RoundsTo q bits') :
    bits = bits' := by
  obtain ⟨m, hm, rfl⟩ := h
  exact ((hm.roundsTo_iff bits').1 h').symm

end Ieee.Format
end ClassAtlas.Decimal
