import ClassAtlas.Proofs.Decimal.Rounding

/-! The shortest decimal rounds back.

A grid is the multiples of a power of ten. The search looks at finer and finer grids, from the one on
which the number has a single digit before the point (`leading_bounds`). It looks at the two points
beside the number only. These are enough, because what rounds to the number is an interval with the
number inside (`not_holds_of_hit?_none`). On the grid of the seventeenth digit the interval is wider than
two steps, so the search ends before its fuel does (`hit?_seventeenth`, `scan_spec`).

The decimal found therefore rounds to the number (`holds_shortest`). Every coarser grid was searched, so
no decimal with fewer digits does (`digitCount_shortest_le`). -/
namespace ClassAtlas.Decimal

/-- The number itself. -/
def Scaled.value (d : Scaled) : ℚ := d.digits * 10 ^ d.exponent

/-! ### Powers and digits -/

theorem powerParts_pos {base : Nat} (h : 0 < base) (e : Int) :
    0 < (powerParts base e).1 ∧ 0 < (powerParts base e).2 := by
  unfold powerParts
  split
  · exact ⟨Nat.pow_pos h, one_pos⟩
  · exact ⟨one_pos, Nat.pow_pos h⟩

theorem powerParts_eq {base : Nat} (h : 0 < base) (e : Int) :
    ((powerParts base e).1 : ℚ) = (base : ℚ) ^ e * (powerParts base e).2 := by
  have hbase : (base : ℚ) ≠ 0 := by exact_mod_cast h.ne'
  unfold powerParts
  split
  · next he =>
    obtain ⟨n, rfl⟩ := Int.eq_ofNat_of_zero_le he
    simp
  · next he =>
    obtain ⟨n, hn⟩ := Int.eq_ofNat_of_zero_le (a := -e) (by omega)
    obtain rfl : e = -(n : Int) := by omega
    simp [hbase]

theorem digitCount_le_iff {n k : Nat} (h : 0 < k) : digitCount n ≤ k ↔ n < 10 ^ k :=
  Nat.length_toDigits_le_iff (by decide) h

theorem digitCount_pos (n : Nat) : 0 < digitCount n := Nat.length_toDigits_pos

theorem lt_pow_digitCount (n : Nat) : n < 10 ^ digitCount n := (digitCount_le_iff (digitCount_pos n)).1 le_rfl

theorem pow_le_of_lt_digitCount {n k : Nat} (hn : 0 < n) (h : k < digitCount n) : 10 ^ k ≤ n := by
  by_contra hlt
  obtain rfl | hk := Nat.eq_zero_or_pos k
  · omega
  · have hle := (digitCount_le_iff hk).2 (Nat.lt_of_not_le hlt)
    omega

/-- The number of digits of a quotient, by the two numbers divided. -/
theorem digitCount_div {n d : Nat} (hd : 0 < d) (hle : d ≤ n) :
    10 ^ (digitCount (n / d) - 1) * d ≤ n ∧ n < 10 ^ digitCount (n / d) * d := by
  rw [← Nat.le_div_iff_mul_le hd, ← Nat.div_lt_iff_lt_mul hd]
  have hlast := Nat.sub_lt (digitCount_pos (n / d)) one_pos
  exact ⟨pow_le_of_lt_digitCount (Nat.div_pos hle hd) hlast, lt_pow_digitCount _⟩

theorem zpow_neg_le_div_iff {n d : Nat} (hd : 0 < d) (k : Nat) :
    (10 : ℚ) ^ (-(k : Int)) ≤ n / d ↔ d ≤ 10 ^ k * n := by
  have hcast : (0 : ℚ) < d := by exact_mod_cast hd
  rw [zpow_neg, zpow_natCast, le_div_iff₀ hcast, inv_mul_le_iff₀ (by positivity)]
  exact_mod_cast Iff.rfl

/-- A number by the place of its first digit. -/
theorem Scaled.value_bounds {d : Scaled} {k : Nat} (hpos : 0 < d.digits) (hk : digitCount d.digits = k + 1) :
    (10 : ℚ) ^ (k + d.exponent) ≤ d.value ∧ d.value < 10 ^ (k + d.exponent + 1) := by
  have hten : (10 : ℚ) ≠ 0 := by norm_num
  have hlow : ((10 ^ k : Nat) : ℚ) ≤ d.digits := by exact_mod_cast pow_le_of_lt_digitCount hpos (by omega)
  have hhigh : (d.digits : ℚ) < (10 ^ (k + 1) : Nat) := by exact_mod_cast hk ▸ lt_pow_digitCount d.digits
  push_cast at hlow hhigh
  have hexponent : (k : Int) + d.exponent + 1 = (k + 1 : Nat) + d.exponent := by omega
  rw [value, hexponent, zpow_add₀ hten, zpow_add₀ hten, zpow_natCast, zpow_natCast]
  constructor <;> gcongr

/-! ### Trailing zeros -/

theorem Scaled.value_strip (fuel : Nat) (d : Scaled) : (d.strip fuel).value = d.value := by
  induction fuel generalizing d with
  | zero => rfl
  | succ fuel ih =>
    rw [strip]
    split
    · next h =>
      have hdigits : (d.digits : ℚ) = (d.digits / 10 : Nat) * 10 := by
        exact_mod_cast (Nat.div_mul_cancel (Nat.dvd_of_mod_eq_zero h.2)).symm
      rw [ih, value, value, hdigits, zpow_add_one₀ (by norm_num)]
      ring
    · rfl

theorem Scaled.strip_le (fuel : Nat) (d : Scaled) : (d.strip fuel).digits ≤ d.digits := by
  induction fuel generalizing d with
  | zero => exact le_rfl
  | succ fuel ih =>
    rw [strip]
    split
    · exact (ih _).trans (Nat.div_le_self _ _)
    · exact le_rfl

/-- None is left if the fuel is the number of digits. -/
theorem Scaled.strip_mod {fuel : Nat} {d : Scaled} (hpos : 0 < d.digits) (hlt : d.digits < 10 ^ fuel) :
    (d.strip fuel).digits % 10 ≠ 0 := by
  induction fuel generalizing d with
  | zero => omega
  | succ fuel ih =>
    rw [strip]
    split
    · next h =>
      refine ih ?_ ?_
      · dsimp only
        omega
      · dsimp only
        rw [Nat.pow_succ] at hlt
        omega
    · next h =>
      intro hzero
      exact h ⟨hpos.ne', hzero⟩

namespace Binary
variable {b : Binary} {i : Int} {a : Nat} {x y z : ℚ}

/-! ### What a number holds -/

theorem holds_value (b : Binary) : b.Holds b.value := by
  have hunit := b.unit_pos
  have hgap := b.gap_pos
  unfold Holds
  split <;> constructor <;> linarith

theorem Holds.between (hx : b.Holds x) (hy : b.Holds y) (hxz : x ≤ z) (hzy : z ≤ y) : b.Holds z := by
  unfold Holds at *
  split at hx
  · next h =>
    rw [if_pos h] at hy ⊢
    exact ⟨hx.1.trans hxz, hzy.trans hy.2⟩
  · next h =>
    rw [if_neg h] at hy ⊢
    exact ⟨hx.1.trans_le hxz, hzy.trans_lt hy.2⟩

/-- What is strictly inside the interval is held whether or not its ends are. -/
theorem holds_of_inside (hlow : b.value - b.gap / 2 < x) (hhigh : x < b.value + b.unit / 2) : b.Holds x := by
  unfold Holds
  split
  · exact ⟨hlow.le, hhigh.le⟩
  · exact ⟨hlow, hhigh⟩

theorem gap_le_unit (b : Binary) : b.gap ≤ b.unit := by
  have := b.unit_pos
  unfold gap
  split <;> linarith

theorem unit_le_value (h : 0 < b.significand) : b.unit ≤ b.value := by
  have hs : (1 : ℚ) ≤ b.significand := by exact_mod_cast h
  exact le_mul_of_one_le_left b.unit_pos.le hs

/-- A number and what it holds are within a factor of two. -/
theorem Holds.near (h : 0 < b.significand) (hx : b.Holds x) : b.value ≤ 2 * x ∧ x ≤ 2 * b.value := by
  have hgap := b.gap_le_unit
  have hunit := unit_le_value h
  have hpos := b.unit_pos
  unfold Holds at hx
  split at hx <;> constructor <;> linarith [hx.1, hx.2]

theorem Holds.pos (h : 0 < b.significand) (hx : b.Holds x) : 0 < x := by
  have hvalue := b.unit_pos.trans_le (unit_le_value h)
  linarith [(hx.near h).1]

/-! ### One grid -/

/-- Points of a grid and quarters of the last place are compared on a common scale. -/
theorem exists_scale (b : Binary) (i : Int) :
    ∃ c : ℚ, 0 < c ∧ ∀ a u : Nat,
      ((a * (b.scales i).1 : Nat) : ℚ) = a * 10 ^ i * c ∧
        ((u * (b.scales i).2 : Nat) : ℚ) = u * (b.unit / 4) * c := by
  have hten := powerParts_pos (by decide : 0 < 10) i
  have htwo := powerParts_pos (by decide : 0 < 2) (b.exponent - 2)
  have hquarter : (2 : ℚ) ^ (b.exponent - 2) = b.unit / 4 := by
    rw [unit, zpow_sub₀ two_ne_zero]
    norm_num
  refine ⟨(powerParts 10 i).2 * (powerParts 2 (b.exponent - 2)).2, by exact_mod_cast Nat.mul_pos hten.2 htwo.2,
    fun a u => ⟨?_, ?_⟩⟩
  · simp only [scales, Nat.cast_mul, powerParts_eq (by decide : 0 < 10) i]
    push_cast
    ring
  · simp only [scales, Nat.cast_mul, powerParts_eq (by decide : 0 < 2) (b.exponent - 2)]
    push_cast
    rw [hquarter]
    ring

theorem value_eq (b : Binary) : b.value = b.significand * b.unit := rfl

theorem low_eq (h : 0 < b.significand) : (b.low : ℚ) * (b.unit / 4) = b.value - b.gap / 2 := by
  have hle : (if b.narrow then 1 else 2) ≤ 4 * b.significand := by split <;> omega
  rw [low, Nat.cast_sub hle, value_eq, gap]
  split <;> push_cast <;> ring

theorem high_eq (b : Binary) : (b.high : ℚ) * (b.unit / 4) = b.value + b.unit / 2 := by
  rw [high, value_eq]
  push_cast
  ring

theorem quarters_le_iff (b : Binary) (i : Int) (u a : Nat) :
    u * (b.scales i).2 ≤ a * (b.scales i).1 ↔ u * (b.unit / 4) ≤ a * 10 ^ i := by
  obtain ⟨c, hc, hscale⟩ := b.exists_scale i
  rw [← Nat.cast_le (α := ℚ), (hscale a u).1, (hscale a u).2, mul_le_mul_iff_left₀ hc]

theorem le_quarters_iff (b : Binary) (i : Int) (u a : Nat) :
    a * (b.scales i).1 ≤ u * (b.scales i).2 ↔ a * 10 ^ i ≤ u * (b.unit / 4) := by
  obtain ⟨c, hc, hscale⟩ := b.exists_scale i
  rw [← Nat.cast_le (α := ℚ), (hscale a u).1, (hscale a u).2, mul_le_mul_iff_left₀ hc]

theorem hits_eq (b : Binary) (i : Int) (a : Nat) :
    b.hits i a =
      if b.closed then
        decide (b.low * (b.scales i).2 ≤ a * (b.scales i).1) && decide (a * (b.scales i).1 ≤ b.high * (b.scales i).2)
      else
        decide (b.low * (b.scales i).2 < a * (b.scales i).1) && decide (a * (b.scales i).1 < b.high * (b.scales i).2) := by
  simp [hits]

theorem below_eq (b : Binary) (i : Int) : b.below i = 4 * b.significand * (b.scales i).2 / (b.scales i).1 := rfl

theorem hits_iff (h : 0 < b.significand) (i : Int) (a : Nat) : b.hits i a ↔ b.Holds (a * 10 ^ i) := by
  have hlow := low_eq h
  have hhigh := b.high_eq
  have hlt (u : Nat) := not_congr (b.le_quarters_iff i u a)
  have hgt (u : Nat) := not_congr (b.quarters_le_iff i u a)
  simp only [not_le] at hlt hgt
  rw [hits_eq, Holds]
  split
  · simp only [Bool.and_eq_true, decide_eq_true_eq, quarters_le_iff, le_quarters_iff, hlow, hhigh]
  · simp only [Bool.and_eq_true, decide_eq_true_eq, hlt, hgt, hlow, hhigh]

theorem value_eq_quarters (b : Binary) : ((4 * b.significand : Nat) : ℚ) * (b.unit / 4) = b.value := by
  rw [value_eq]
  push_cast
  ring

theorem below_le (b : Binary) (i : Int) : (b.below i : ℚ) * 10 ^ i ≤ b.value := by
  rw [← value_eq_quarters, ← le_quarters_iff, below_eq]
  exact Nat.div_mul_le_self _ _

theorem lt_above (b : Binary) (i : Int) : b.value < ((b.below i + 1 : Nat) : ℚ) * 10 ^ i := by
  rw [← value_eq_quarters, ← not_le, ← le_quarters_iff, not_le, Nat.mul_comm (b.below i + 1), below_eq]
  refine Nat.lt_mul_div_succ _ ?_
  exact Nat.mul_pos (powerParts_pos (by decide) i).1 (powerParts_pos (by decide) _).2

theorem grid_mono {a c : Nat} (h : a ≤ c) (i : Int) : (a : ℚ) * 10 ^ i ≤ c * 10 ^ i := by
  have hcast : (a : ℚ) ≤ c := by exact_mod_cast h
  gcongr

theorem nearer_cases (b : Binary) (i : Int) : b.nearer i = b.below i ∨ b.nearer i = b.below i + 1 := by
  unfold nearer
  dsimp only
  repeat' split
  all_goals simp

/-- A hit is one of the two neighbours of the number. -/
theorem of_hit? (h : 0 < b.significand) (hit : b.hit? i = some a) :
    b.Holds (a * 10 ^ i) ∧ (a = b.below i ∨ a = b.below i + 1) := by
  rw [← hits_iff h]
  unfold hit? at hit
  dsimp only at hit
  split at hit
  · next hlow hhigh =>
    obtain rfl := Option.some.inj hit
    obtain heq | heq := b.nearer_cases i
    · exact ⟨heq ▸ hlow, .inl heq⟩
    · exact ⟨heq ▸ hhigh, .inr heq⟩
  · next hlow _ =>
    obtain rfl := Option.some.inj hit
    exact ⟨hlow, .inl rfl⟩
  · next _ hhigh =>
    obtain rfl := Option.some.inj hit
    exact ⟨hhigh, .inr rfl⟩
  · cases hit

/-- Without a hit no point of the grid rounds to the number. -/
theorem not_holds_of_hit?_none (h : 0 < b.significand) (hit : b.hit? i = none) (a : Nat) :
    ¬b.Holds (a * 10 ^ i) := by
  intro ha
  have hnone : ¬b.hits i (b.below i) ∧ ¬b.hits i (b.below i + 1) := by
    unfold hit? at hit
    dsimp only at hit
    split at hit <;> simp_all
  rw [hits_iff h, hits_iff h] at hnone
  obtain hle | hlt := Nat.lt_or_ge (b.below i) a
  · exact hnone.2 (b.holds_value.between ha (b.lt_above i).le (grid_mono hle i))
  · exact hnone.1 (ha.between b.holds_value (grid_mono hlt i) (b.below_le i))

/-- A grid with steps of at most half the unit has a hit. -/
theorem hit?_ne_none (h : 0 < b.significand) (hstep : (10 : ℚ) ^ i ≤ b.unit / 2) : b.hit? i ≠ none := by
  intro hit
  have hlow := b.below_le i
  have hhigh := b.lt_above i
  have hgap := b.gap_pos
  have hunit := b.gap_le_unit
  have hnext : ((b.below i + 1 : Nat) : ℚ) * 10 ^ i = b.below i * 10 ^ i + 10 ^ i := by
    push_cast
    ring
  by_cases hnear : b.value - b.gap / 2 < b.below i * 10 ^ i
  · exact not_holds_of_hit?_none h hit _ (holds_of_inside hnear (by linarith))
  · refine not_holds_of_hit?_none h hit _ (holds_of_inside (hhigh.trans' ?_) ?_) <;> linarith

/-! ### The first grid -/

/-- The number as a quotient. -/
theorem value_eq_div (b : Binary) :
    b.value = (b.significand * (powerParts 2 b.exponent).1 : Nat) / (powerParts 2 b.exponent).2 := by
  have hdown : ((powerParts 2 b.exponent).2 : ℚ) ≠ 0 := by
    exact_mod_cast (powerParts_pos (by decide : 0 < 2) b.exponent).2.ne'
  rw [value, eq_div_iff hdown]
  push_cast [powerParts_eq (by decide : 0 < 2) b.exponent]
  ring

/-- On the first grid the number has one digit before the point. -/
theorem leading_bounds (h : 0 < b.significand) :
    (10 : ℚ) ^ b.leading ≤ b.value ∧ b.value < 10 ^ (b.leading + 1) := by
  obtain ⟨hup, hdown⟩ := powerParts_pos (by decide : 0 < 2) b.exponent
  have hcast : (0 : ℚ) < (powerParts 2 b.exponent).2 := by exact_mod_cast hdown
  have hpos : 0 < b.significand * (powerParts 2 b.exponent).1 := Nat.mul_pos h hup
  unfold leading
  dsimp only
  rw [value_eq_div]
  generalize b.significand * (powerParts 2 b.exponent).1 = n at hpos
  generalize (powerParts 2 b.exponent).2 = down at hdown hcast
  split
  · next hle =>
    obtain ⟨hlow, hhigh⟩ := digitCount_div hdown hle
    have hexponent : (digitCount (n / down) : Int) - 1 = (digitCount (n / down) - 1 : Nat) := by
      have := digitCount_pos (n / down)
      omega
    rw [sub_add_cancel, hexponent, zpow_natCast, zpow_natCast, le_div_iff₀ hcast, div_lt_iff₀ hcast]
    exact ⟨by exact_mod_cast hlow, by exact_mod_cast hhigh⟩
  · next hlt =>
    -- The quotient the other way round has the digits, and the number is a power of ten if it is exact.
    obtain ⟨hlow, hhigh⟩ := digitCount_div hpos (Nat.le_of_not_le hlt)
    obtain ⟨t, ht⟩ := Nat.exists_eq_add_one_of_ne_zero (digitCount_pos (down / n)).ne'
    rw [ht] at hlow hhigh ⊢
    rw [Nat.add_sub_cancel] at hlow ⊢
    have hexact : 1 - ((t + 1 : Nat) : Int) = -(t : Int) := by omega
    have hnext : -((t + 1 : Nat) : Int) + 1 = -(t : Int) := by omega
    rw [Nat.pow_eq, Nat.mul_comm]
    split
    · next heq =>
      have hpower : (10 : ℚ) ^ (-(t : Int)) = n / down := by
        rw [zpow_neg, zpow_natCast, eq_div_iff hcast.ne', inv_mul_eq_iff_eq_mul₀ (by positivity)]
        exact_mod_cast heq.symm
      rw [hexact, ← hpower]
      exact ⟨le_rfl, zpow_lt_zpow_right₀ (by norm_num) (Int.lt_succ _)⟩
    · next hne =>
      rw [hnext, zpow_neg_le_div_iff hdown, ← not_le, zpow_neg_le_div_iff hdown]
      exact ⟨hhigh.le, fun hge => hne (Nat.le_antisymm hlow hge)⟩

/-! ### The search -/

/-- The search ends on the first grid from `i` down that has a hit. -/
theorem scan_spec (fuel : Nat) {j : Int} (hji : j ≤ i) (hfuel : i < j + fuel) (hit : b.hit? j ≠ none) :
    b.hit? (b.scan fuel i).exponent = some (b.scan fuel i).digits ∧ (b.scan fuel i).exponent ≤ i ∧
      ∀ k, (b.scan fuel i).exponent < k → k ≤ i → b.hit? k = none := by
  induction fuel generalizing i with
  | zero => omega
  | succ fuel ih =>
    rw [scan]
    split
    · next a ha => exact ⟨ha, le_rfl, fun k hlt hle => absurd hle (not_le.2 hlt)⟩
    · next hnone =>
      have hne : j ≠ i := fun h => hit (h ▸ hnone)
      obtain ⟨hfound, hle, habove⟩ := ih (i := i - 1) (by omega) (by omega)
      refine ⟨hfound, by omega, fun k hlt hki => ?_⟩
      obtain rfl | hk := Int.le_iff_eq_or_lt.1 hki
      · exact hnone
      · exact habove k hlt (by omega)

/-- Seventeen digits are enough for a significand of 53 bits. -/
theorem hit?_seventeenth (h : 0 < b.significand) (hs : b.significand < 2 ^ 53) : b.hit? (b.leading - 17) ≠ none := by
  refine hit?_ne_none h ?_
  have hunit := b.unit_pos
  have hbits : (b.significand : ℚ) ≤ 2 ^ 53 := by exact_mod_cast hs.le
  have hvalue : b.value ≤ 2 ^ 53 * b.unit := by
    rw [value_eq]
    gcongr
  have hleading := (leading_bounds h).1
  rw [zpow_sub₀ (by norm_num)]
  norm_num at hvalue ⊢
  linarith

/-- What the search finds, and what stripping leaves of it. -/
structure Found (b : Binary) (c : Nat) (j : Int) : Prop where
  holds : b.Holds (c * 10 ^ j)
  neighbour : c = b.below j ∨ c = b.below j + 1
  le : j ≤ b.leading
  above : ∀ k, j < k → k ≤ b.leading → ∀ a : Nat, ¬b.Holds (a * 10 ^ k)
  value : b.shortest.value = c * 10 ^ j
  digits_le : b.shortest.digits ≤ c
  mod_ne : b.shortest.digits % 10 ≠ 0

theorem exists_found (h : 0 < b.significand) (hs : b.significand < 2 ^ 53) : ∃ c j, b.Found c j := by
  obtain ⟨hit, hle, habove⟩ := scan_spec 20 (i := b.leading) (j := b.leading - 17) (by omega) (by omega)
    (hit?_seventeenth h hs)
  obtain ⟨hholds, hneighbour⟩ := of_hit? h hit
  have hpos : 0 < (b.scan 20 b.leading).digits := by
    refine Nat.pos_of_ne_zero fun hzero => (hholds.pos h).ne ?_
    rw [hzero, Nat.cast_zero, zero_mul]
  exact ⟨_, _, hholds, hneighbour, hle, fun k hjk hk => not_holds_of_hit?_none h (habove k hjk hk),
    Scaled.value_strip _ _, Scaled.strip_le _ _, Scaled.strip_mod hpos (lt_pow_digitCount _)⟩

/-- The shortest decimal rounds to the number. -/
theorem holds_shortest (h : 0 < b.significand) (hs : b.significand < 2 ^ 53) : b.Holds b.shortest.value := by
  obtain ⟨c, j, found⟩ := exists_found h hs
  exact found.value ▸ found.holds

/-- The digits reach from the first grid to the one of the hit. -/
theorem Found.digits_lt {c n : Nat} {j : Int} (found : b.Found c j) (h : 0 < b.significand)
    (hn : b.leading + 1 = n + j) : b.shortest.digits < 10 ^ n := by
  have hbelow : b.below j < 10 ^ n := by
    have hlt := (b.below_le j).trans_lt (leading_bounds h).2
    rw [hn, zpow_add₀ (by norm_num), zpow_natCast] at hlt
    exact_mod_cast lt_of_mul_lt_mul_right hlt (by positivity)
  have hle : b.shortest.digits ≤ 10 ^ n := by
    have hneighbour := found.neighbour
    have hdigits := found.digits_le
    omega
  refine hle.lt_of_ne fun heq => found.mod_ne ?_
  have hzero : n ≠ 0 := by
    have hj := found.le
    omega
  exact Nat.mod_eq_zero_of_dvd (heq ▸ dvd_pow_self 10 hzero)

theorem shortest_pos (h : 0 < b.significand) (hs : b.significand < 2 ^ 53) : 0 < b.shortest.digits := by
  obtain ⟨c, j, found⟩ := exists_found h hs
  exact Nat.pos_of_ne_zero fun hzero => found.mod_ne (by rw [hzero])

/-- No decimal with fewer digits rounds to the number. -/
theorem digitCount_shortest_le (h : 0 < b.significand) (hs : b.significand < 2 ^ 53) (ha : b.Holds (a * 10 ^ i)) :
    digitCount b.shortest.digits ≤ digitCount a := by
  obtain ⟨c, j, found⟩ := exists_found h hs
  obtain ⟨n, hn⟩ := Int.eq_ofNat_of_zero_le (a := b.leading - j) (by linarith [found.le])
  have hdigits : digitCount b.shortest.digits ≤ n + 1 :=
    (digitCount_le_iff n.succ_pos).2 (found.digits_lt h (by push_cast; omega))
  refine hdigits.trans (Nat.succ_le_of_lt ?_)
  by_cases hfirst : j = b.leading
  · have hpos := digitCount_pos a
    omega
  -- Past the first grid, the decimal is on no coarser grid than the hit and is not below the first digit.
  have hnone := found.above b.leading (lt_of_le_of_ne found.le hfirst) le_rfl
  have hij : i ≤ j := by
    by_contra hji
    by_cases hi : i ≤ b.leading
    · exact found.above i (by omega) hi a ha
    · obtain ⟨k, hk⟩ := Int.eq_ofNat_of_zero_le (a := i - b.leading) (by omega)
      refine hnone (a * 10 ^ k) ?_
      obtain rfl : i = k + b.leading := by omega
      rw [zpow_add₀ (by norm_num), zpow_natCast, ← mul_assoc] at ha
      exact_mod_cast ha
  have hge : (10 : ℚ) ^ b.leading ≤ a * 10 ^ i := by
    refine le_of_not_ge fun hle => hnone 1 ?_
    rw [Nat.cast_one, one_mul]
    exact ha.between b.holds_value hle (leading_bounds h).1
  obtain ⟨k, hk⟩ := Int.eq_ofNat_of_zero_le (a := b.leading - i) (by omega)
  have hpow : 10 ^ k ≤ a := by
    rw [show b.leading = k + i by omega, zpow_add₀ (by norm_num), zpow_natCast] at hge
    exact_mod_cast le_of_mul_le_mul_right hge (by positivity)
  have hlt : 10 ^ k < 10 ^ digitCount a := hpow.trans_lt (lt_pow_digitCount a)
  rw [Nat.pow_lt_pow_iff_right (by decide)] at hlt
  omega

end Binary
end ClassAtlas.Decimal
