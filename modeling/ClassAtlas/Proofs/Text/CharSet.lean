import ClassAtlas.Text.Digit
import ClassAtlas.Text.Letter
import ClassAtlas.Text.Printable
import Mathlib

/-! Which characters a set has.

The search for a character among ascending switch points ends behind those at or below it (`rank_eq_countP`),
so a character is in a set if an odd number of them are (`contains_iff`). The points of all sets here
ascend, and below 128 few of them are, so the ASCII characters in a set are plain to see. -/
namespace ClassAtlas.Text.CharSet

/-! ### The search -/

section
variable {xs : Array Nat} {n lo hi : Nat}

/-- Switch points before the place are at or below the number, and those from it on above. -/
structure Splits (xs : Array Nat) (n place : Nat) : Prop where
  inside : place ≤ xs.size
  below : ∀ i < place, xs.getD i 0 ≤ n
  above : ∀ i, place ≤ i → i < xs.size → n < xs.getD i 0

theorem splits_rank (hxs : ∀ i j, i < j → j < xs.size → xs.getD i 0 < xs.getD j 0) (hle : lo ≤ hi)
    (hinside : hi ≤ xs.size) (hbelow : ∀ i < lo, xs.getD i 0 ≤ n)
    (habove : ∀ i, hi ≤ i → i < xs.size → n < xs.getD i 0) : Splits xs n (rank xs n lo hi) := by
  fun_induction rank xs n lo hi with
  | case1 lo hi hlt hmiddle ih =>
    refine ih (by omega) hinside (fun i hi' => ?_) habove
    rcases Nat.lt_or_eq_of_le (Nat.le_of_lt_succ hi') with hlt' | rfl
    · exact (hxs i _ hlt' (by omega)).le.trans hmiddle
    · exact hmiddle
  | case2 lo hi hlt hmiddle ih =>
    refine ih (by omega) (by omega) hbelow (fun i hi' hsize => ?_)
    rcases Nat.lt_or_eq_of_le hi' with hlt' | rfl
    · exact (Nat.lt_of_not_le hmiddle).trans (hxs _ i hlt' hsize)
    · exact Nat.lt_of_not_le hmiddle
  | case3 lo hi hlt =>
    obtain rfl : lo = hi := by omega
    exact ⟨hinside, hbelow, habove⟩

theorem getD_eq {i : Nat} (h : i < xs.toList.length) : xs.getD i 0 = xs.toList[i] := by
  rw [Array.getD, dif_pos (by simpa using h)]
  rfl

theorem Splits.countP_eq {place : Nat} (h : Splits xs n place) : xs.toList.countP (· ≤ n) = place := by
  have hbefore : (xs.toList.take place).countP (· ≤ n) = place := by
    rw [List.countP_eq_length.2, List.length_take, Array.length_toList, min_eq_left h.inside]
    intro x hx
    obtain ⟨i, hi, rfl⟩ := List.mem_take_iff_getElem.1 hx
    have hlength : i < xs.toList.length := by omega
    simpa [getD_eq hlength] using h.below i (by omega)
  have hafter : (xs.toList.drop place).countP (· ≤ n) = 0 := by
    rw [List.countP_eq_zero]
    intro x hx
    obtain ⟨i, hi, rfl⟩ := List.mem_drop_iff_getElem.1 hx
    have hlength : place + i < xs.toList.length := by omega
    have habove := h.above (place + i) (Nat.le_add_right ..) (by simpa using hlength)
    rw [getD_eq hlength] at habove
    simpa using habove
  conv_lhs => rw [← List.take_append_drop place xs.toList, List.countP_append, hbefore, hafter, Nat.add_zero]

end

variable {s : CharSet} {c : Char}

/-- A character is in a set with ascending switch points if an odd number of them are at or below it. -/
theorem contains_iff (h : s.switches.toList.IsChain (· < ·)) :
    s.contains c = true ↔ s.switches.toList.countP (· ≤ c.toNat) % 2 = 1 := by
  have hxs : ∀ i j, i < j → j < s.switches.size → s.switches.getD i 0 < s.switches.getD j 0 := by
    intro i j hij hj
    have hj' : j < s.switches.toList.length := by simpa using hj
    rw [getD_eq hj', getD_eq (hij.trans hj')]
    exact List.pairwise_iff_getElem.1 h.pairwise i j _ _ hij
  have hsplits : Splits s.switches c.toNat (rank s.switches c.toNat 0 s.switches.size) :=
    splits_rank hxs (Nat.zero_le _) (Nat.le_refl _) nofun fun i hle hlt => absurd hlt (Nat.not_lt.2 hle)
  rw [contains, beq_iff_eq, hsplits.countP_eq]

/-- Switch points that are all above a character say nothing about it. -/
theorem contains_of_append (first later : List Nat) {k : Nat} (h : s.switches.toList.IsChain (· < ·))
    (hsplit : s.switches.toList = first ++ later) (hlater : ∀ x ∈ later, k ≤ x) (hc : c.toNat < k) :
    s.contains c = true ↔ first.countP (· ≤ c.toNat) % 2 = 1 := by
  have hnone : later.countP (· ≤ c.toNat) = 0 := by
    rw [List.countP_eq_zero]
    intro x hx
    have hle := hlater x hx
    simp
    omega
  rw [contains_iff h, hsplit, List.countP_append, hnone, Nat.add_zero]

end CharSet

theorem ascends_letters : letters.switches.toList.IsChain (· < ·) := by decide +kernel

theorem ascends_digits : digits.switches.toList.IsChain (· < ·) := by decide +kernel

theorem ascends_printables : printables.switches.toList.IsChain (· < ·) := by decide +kernel

section Ascii
variable {c : Char} (hc : c.toNat < 128)
include hc

theorem contains_letters_ascii : letters.contains c = c.isAlpha := by
  have hcontains : letters.contains c = true ↔ [0x41, 0x5B, 0x61, 0x7B].countP (· ≤ c.toNat) % 2 = 1 :=
    CharSet.contains_of_append _ (letters.switches.toList.drop 4) ascends_letters rfl (by decide +kernel) hc
  have halpha : c.isAlpha = true ↔ (65 ≤ c.toNat ∧ c.toNat ≤ 90) ∨ 97 ≤ c.toNat ∧ c.toNat ≤ 122 := by
    simp only [Char.isAlpha, Char.isUpper, Char.isLower, Bool.or_eq_true, Bool.and_eq_true, decide_eq_true_eq]
    rfl
  rw [Bool.eq_iff_iff, hcontains, halpha]
  simp only [List.countP_cons, List.countP_nil, decide_eq_true_eq]
  split <;> split <;> split <;> split <;> omega

theorem contains_digits_ascii : digits.contains c = c.isDigit := by
  have hcontains : digits.contains c = true ↔ [0x30, 0x3A].countP (· ≤ c.toNat) % 2 = 1 :=
    CharSet.contains_of_append _ (digits.switches.toList.drop 2) ascends_digits rfl (by decide +kernel) hc
  have hdigit : c.isDigit = true ↔ 48 ≤ c.toNat ∧ c.toNat ≤ 57 := by
    simp only [Char.isDigit, Bool.and_eq_true, decide_eq_true_eq]
    rfl
  rw [Bool.eq_iff_iff, hcontains, hdigit]
  simp only [List.countP_cons, List.countP_nil, decide_eq_true_eq]
  split <;> split <;> omega

end Ascii

end ClassAtlas.Text
