import ClassAtlas.Proofs.Decimal.Numerals
import ClassAtlas.Proofs.Decimal.Shortest

/-! The texts of floating-point numbers are faithful.

A text is written in one of two layouts, by the size of the number (`isPlain_spell_iff`,
`isScientific_spell_iff`), and in both it is read as the shortest decimal (`read?_spell`). This rounds to
the number, so the pattern can be had back from the text (`exists_isFaithful`). The texts of the zeros,
the infinities and nan are read as nothing or as zero, and they differ from each other. So of the
patterns of one width only those of nan share a text (`spell_faithful`). -/
namespace ClassAtlas.Decimal
open Numeral

/-- From one thousandth on and below ten million. -/
def IsModerate (x : ℚ) : Prop := 1 / 1000 ≤ x ∧ x < 10000000

/-! ### Layouts -/

namespace Binary
variable {b : Binary}

theorem isModerate_iff (b : Binary) : b.isModerate ↔ IsModerate b.value := by
  have hdown : (0 : ℚ) < (powerParts 2 b.exponent).2 := by
    exact_mod_cast (powerParts_pos (by decide : 0 < 2) b.exponent).2
  have heq : b.isModerate =
      (decide ((powerParts 2 b.exponent).2 ≤ b.significand * (powerParts 2 b.exponent).1 * 1000) &&
        decide (b.significand * (powerParts 2 b.exponent).1 < 10000000 * (powerParts 2 b.exponent).2)) := by
    simp [isModerate]
  rw [heq, IsModerate, value_eq_div, Bool.and_eq_true, decide_eq_true_eq, decide_eq_true_eq, div_lt_iff₀ hdown,
    div_le_div_iff₀ (by norm_num) hdown, one_mul]
  exact_mod_cast Iff.rfl

/-- A number of moderate size has its digits in place. -/
theorem spell_of_isModerate (hm : b.isModerate) : ∃ m : Mantissa, b.spell = m.text ∧ m.value = b.shortest.value := by
  obtain ⟨m, hplaced, hvalue⟩ := placed_eq (isDigits_toDigits b.shortest.digits)
    ((Nat.toDigits 10 b.shortest.digits).length + b.shortest.exponent)
  refine ⟨m, (if_pos hm).trans hplaced, ?_⟩
  rw [hvalue, natural_toDigits, add_sub_cancel_left, Scaled.value]

variable (h : 0 < b.significand) (hs : b.significand < 2 ^ 53) (negative : Bool)
include h hs

/-- Any other number has a power of ten, and this is never zero. -/
theorem spell_of_not_isModerate (hm : ¬b.isModerate) :
    ∃ m : Mantissa, ∃ power : Int, b.spell = m.text ++ 'E' :: (toString power).toList ∧ m.IsNormal ∧ power ≠ 0 ∧
      m.value * 10 ^ power = b.shortest.value := by
  obtain ⟨lead, ds, hds, hlead⟩ := exists_toDigits (shortest_pos h hs)
  have hdigits := hds ▸ isDigits_toDigits b.shortest.digits
  have hnatural : natural (lead :: ds) = b.shortest.digits := hds ▸ natural_toDigits _
  have hcount : digitCount b.shortest.digits = ds.length + 1 := congrArg List.length hds
  have hpower : ((lead :: ds).length : Int) + b.shortest.exponent - 1 = ds.length + b.shortest.exponent := by
    rw [List.length_cons]
    omega
  obtain ⟨m, hscientific, hwhole, hvalue⟩ := scientific_eq hdigits (ds.length + b.shortest.exponent)
  refine ⟨m, ds.length + b.shortest.exponent, ?_, ⟨lead, hlead, hwhole⟩, fun hzero => hm ?_, ?_⟩
  · rw [← hscientific, ← hpower, ← hds]
    exact if_neg hm
  · -- With no power of ten the text would be that of a number between one and ten.
    obtain ⟨hlow, hhigh⟩ := Scaled.value_bounds (shortest_pos h hs) hcount
    obtain ⟨hbelow, habove⟩ := (holds_shortest h hs).near h
    rw [hzero] at hlow hhigh
    rw [isModerate_iff]
    norm_num at hlow hhigh
    constructor <;> linarith
  · rw [hvalue, hnatural, Scaled.value, zpow_add₀ (by norm_num), zpow_natCast]
    field_simp

/-- In both layouts the text is read as the shortest decimal. -/
theorem read?_spell :
    read? (sign negative ++ b.spell) = some (if negative then -b.shortest.value else b.shortest.value) := by
  by_cases hm : b.isModerate
  · obtain ⟨m, hspell, hvalue⟩ := spell_of_isModerate hm
    have hread := read?_sign negative m []
    rw [List.append_nil, unsigned?_text, hvalue] at hread
    rw [hspell, hread]
    rfl
  · obtain ⟨m, power, hspell, -, -, hvalue⟩ := spell_of_not_isModerate h hs hm
    rw [hspell, read?_sign, unsigned?_scientific, hvalue]
    rfl

theorem isScientific_spell (hm : ¬b.isModerate) : IsScientific (sign negative ++ b.spell) := by
  obtain ⟨m, power, hspell, hnormal, hpower, -⟩ := spell_of_not_isModerate h hs hm
  obtain ⟨d, ds, hds, hd⟩ := exists_toDigits (Int.natAbs_pos.2 hpower)
  refine ⟨negative, m, hnormal, decide (power < 0), d :: ds, hds ▸ isDigits_toDigits _, ?_, ?_⟩
  · simpa using hd
  · rw [hspell, toList_toString, hds]

theorem isPlain_spell_iff : IsPlain (sign negative ++ b.spell) ↔ b.isModerate := by
  constructor
  · intro hplain
    by_contra hm
    exact hplain.not_isScientific (isScientific_spell h hs negative hm)
  · intro hm
    obtain ⟨m, hspell, -⟩ := spell_of_isModerate hm
    exact ⟨negative, m, by rw [hspell]⟩

theorem isScientific_spell_iff : IsScientific (sign negative ++ b.spell) ↔ ¬b.isModerate := by
  refine ⟨fun hscientific hm => ?_, isScientific_spell h hs negative⟩
  exact ((isPlain_spell_iff h hs negative).2 hm).not_isScientific hscientific

theorem isPointed_spell : IsPointed (sign negative ++ b.spell) := by
  by_cases hm : b.isModerate
  · exact ((isPlain_spell_iff h hs negative).2 hm).isPointed
  · exact (isScientific_spell h hs negative hm).isPointed

end Binary

/-! ### Patterns of numbers -/

theorem abs_signed {x : ℚ} (hx : 0 < x) (negative : Bool) : |if negative then -x else x| = x := by
  cases negative <;> simp [abs_of_pos hx]

theorem signed_lt_zero {x : ℚ} (hx : 0 < x) (negative : Bool) :
    decide ((if negative then -x else x) < 0) = negative := by
  cases negative <;> simp [hx, hx.le]

namespace Ieee

theorem Value.toList_spell_finite (negative : Bool) (b : Binary) :
    (Value.finite negative b).spell.toList = sign negative ++ b.spell := String.toList_ofList

namespace Format
variable (f : Format)

/-- What a text and the number `q` that it is have to do with the pattern of a number other than zero. -/
structure IsFaithful (bits : Nat) (text : List Char) (q : ℚ) : Prop where
  reads : read? text = some q
  /-- The number rounds to the pattern and to no other one. -/
  rounds (other : Nat) : f.RoundsTo q other ↔ other = bits
  /-- No decimal with fewer digits rounds to the pattern. -/
  shortest : ∃ d : Scaled, |q| = d.value ∧
    ∀ (d' : Scaled) (q' : ℚ), |q'| = d'.value → f.RoundsTo q' bits → digitCount d.digits ≤ digitCount d'.digits
  plain_iff : IsPlain text ↔ IsModerate |f.number bits|
  scientific_iff : IsScientific text ↔ ¬IsModerate |f.number bits|
  pointed : IsPointed text

theorem significand_pos {m : Nat} (hm : 0 < m) : 0 < (f.binary m).significand := by
  have hpos := f.strictMono_magnitude hm
  rw [magnitude_zero, magnitude] at hpos
  refine Nat.pos_of_ne_zero fun hzero => hpos.ne' ?_
  rw [Binary.value, hzero, Nat.cast_zero, zero_mul]

theorem significand_lt (m : Nat) : (f.binary m).significand < 2 ^ (f.fractionBits + 1) := by
  have hfraction : m % 2 ^ f.fractionBits < 2 ^ f.fractionBits := Nat.mod_lt _ (by positivity)
  unfold binary
  dsimp only
  rw [Nat.pow_succ]
  split
  · dsimp only
    omega
  · dsimp only
    omega

variable {f}

theorem decode_finite (negative : Bool) {m : Nat} (hm : 0 < m) (hfinite : m < f.infinity) :
    f.decode (f.pattern negative m) = .finite negative (f.binary m) := by
  rw [f.decode_pattern negative (hfinite.trans f.infinity_lt_magnitudes), if_pos hfinite, if_neg hm.ne']

theorem fractionBits_bounds (hf : f = single ∨ f = double) : 0 < f.fractionBits ∧ f.fractionBits ≤ 52 := by
  obtain rfl | rfl := hf <;> decide

theorem significand_lt_pow (hf : f = single ∨ f = double) (m : Nat) : (f.binary m).significand < 2 ^ 53 :=
  (f.significand_lt m).trans_le (Nat.pow_le_pow_right (by decide) (Nat.succ_le_succ (fractionBits_bounds hf).2))

/-- The text of a pattern between zero and the infinity is faithful to it. -/
theorem exists_isFaithful (hf : f = single ∨ f = double) (negative : Bool) {m : Nat} (hm : 0 < m)
    (hfinite : m < f.infinity) :
    ∃ q ≠ 0, f.IsFaithful (f.pattern negative m) (f.decode (f.pattern negative m)).spell.toList q := by
  have hs := f.significand_pos hm
  have hs' := significand_lt_pow hf m
  have hfraction := (fractionBits_bounds hf).1
  have hmoderate : IsModerate |f.number (f.pattern negative m)| ↔ (f.binary m).isModerate := by
    rw [Binary.isModerate_iff, f.abs_number_pattern negative (hfinite.trans f.infinity_lt_magnitudes), magnitude]
  have hread := Binary.read?_spell hs hs' negative
  have hholds := Binary.holds_shortest hs hs'
  have habs := abs_signed (hholds.pos hs) negative
  have hnegative := signed_lt_zero (hholds.pos hs) negative
  -- Of the number only its size and its sign matter.
  generalize (if negative then -(f.binary m).shortest.value else (f.binary m).shortest.value) = q at *
  rw [decode_finite negative hm hfinite, Value.toList_spell_finite]
  refine ⟨q, abs_pos.1 (habs ▸ hholds.pos hs), hread, fun other => ?_, ⟨_, habs, fun d q' hq' hrounds => ?_⟩, ?_, ?_,
    Binary.isPointed_spell hs hs' negative⟩
  · rw [← habs, ← isNearest_iff hfraction hm] at hholds
    rw [hholds.roundsTo_iff, hnegative, min_eq_left hfinite.le]
  · have hother := hrounds.isNearest hfinite
    rw [isNearest_iff hfraction hm, hq'] at hother
    exact Binary.digitCount_shortest_le hs hs' hother
  · rw [hmoderate, Binary.isPlain_spell_iff hs hs']
  · rw [hmoderate, Binary.isScientific_spell_iff hs hs']

theorem exists_pattern_finite {bits : Nat} (hbits : bits < f.patterns) (hfinite : f.IsFinite bits)
    (hne : f.number bits ≠ 0) : ∃ negative m, 0 < m ∧ m < f.infinity ∧ bits = f.pattern negative m := by
  obtain ⟨negative, m, hm, rfl⟩ := f.exists_pattern hbits
  rw [IsFinite, f.pattern_mod negative hm] at hfinite
  refine ⟨negative, m, Nat.pos_of_ne_zero ?_, hfinite, rfl⟩
  rintro rfl
  rw [f.number_pattern negative hm, magnitude_zero] at hne
  cases negative <;> simp at hne

end Format

/-! ### All other patterns -/

/-- The values that are not numbers other than zero. -/
def Value.specials : List Value := [.nan, .infinite false, .infinite true, .zero false, .zero true]

theorem Value.eq_of_spell_eq : ∀ v ∈ specials, ∀ v' ∈ specials, v.spell = v'.spell → v = v' := by decide

/-- If a special value is read as a number at all, it is zero. -/
theorem Value.read?_special {v : Value} (h : v ∈ specials) {q : ℚ} (hq : read? v.spell.toList = some q) : q = 0 := by
  let zero : Mantissa := ⟨['0'], ['0'], rfl, rfl⟩
  have hzero (negative : Bool) : read? (sign negative ++ (zero.text ++ [])) = some 0 := by
    rw [read?_sign, List.append_nil, unsigned?_text]
    simp [zero, Mantissa.value, natural, Nat.ofDigitChars]
  simp only [specials, List.mem_cons, List.not_mem_nil, or_false] at h
  obtain rfl | rfl | rfl | rfl | rfl := h
  · cases hq
  · cases hq
  · cases hq
  · exact (Option.some.inj ((hzero false).symm.trans hq)).symm
  · exact (Option.some.inj ((hzero true).symm.trans hq)).symm

namespace Format
variable {f : Format}

/-- Whether a pattern stands for no number and for no infinity. -/
def IsNan (f : Format) (bits : Nat) : Prop := f.infinity < bits % f.magnitudes

theorem decode_special (negative : Bool) {m : Nat} (hm : m < f.magnitudes) (hspecial : ¬(0 < m ∧ m < f.infinity)) :
    f.decode (f.pattern negative m) ∈ Value.specials := by
  rw [f.decode_pattern negative hm]
  split
  · next hfinite =>
    rw [if_pos (by omega)]
    cases negative <;> decide
  · split
    · cases negative <;> decide
    · decide

theorem decode_eq_nan_iff {bits : Nat} (hbits : bits < f.patterns) : f.decode bits = .nan ↔ f.IsNan bits := by
  obtain ⟨negative, m, hm, rfl⟩ := f.exists_pattern hbits
  rw [IsNan, f.decode_pattern negative hm, f.pattern_mod negative hm]
  split_ifs <;> simp <;> omega

/-- The zeros and the infinities are told apart by their values. -/
theorem eq_of_decode_eq {bits bits' : Nat} (hbits : bits < f.patterns) (hbits' : bits' < f.patterns)
    (hspecial : f.decode bits ∈ Value.specials) (hnan : f.decode bits ≠ .nan)
    (heq : f.decode bits = f.decode bits') :
    bits = bits' := by
  obtain ⟨negative, m, hm, rfl⟩ := f.exists_pattern hbits
  obtain ⟨negative', m', hm', rfl⟩ := f.exists_pattern hbits'
  rw [f.pattern_inj hm hm']
  rw [f.decode_pattern negative' hm'] at heq
  rw [f.decode_pattern negative hm] at heq hspecial hnan
  split_ifs at heq hspecial hnan <;> simp_all [Value.specials]

/-- A text is that of a special value, or it is a number other than zero that rounds to the pattern. -/
theorem special_or_roundsTo (hf : f = single ∨ f = double) {bits : Nat} (hbits : bits < f.patterns) :
    f.decode bits ∈ Value.specials ∨
      ∃ q ≠ 0, read? (f.decode bits).spell.toList = some q ∧ f.RoundsTo q bits := by
  obtain ⟨negative, m, hm, rfl⟩ := f.exists_pattern hbits
  by_cases h : 0 < m ∧ m < f.infinity
  · obtain ⟨q, hne, faithful⟩ := exists_isFaithful hf negative h.1 h.2
    exact .inr ⟨q, hne, faithful.reads, (faithful.rounds _).2 rfl⟩
  · exact .inl (decode_special negative hm h)

theorem spell_inj (hf : f = single ∨ f = double) {bits bits' : Nat} (hbits : bits < f.patterns)
    (hbits' : bits' < f.patterns) :
    (f.decode bits).spell = (f.decode bits').spell ↔ bits = bits' ∨ f.IsNan bits ∧ f.IsNan bits' := by
  constructor
  · intro heq
    obtain h | ⟨q, hne, hq, hrounds⟩ := special_or_roundsTo hf hbits
    · obtain h' | ⟨q', hne', hq', -⟩ := special_or_roundsTo hf hbits'
      · have hdecode := Value.eq_of_spell_eq _ h _ h' heq
        by_cases hnan : f.decode bits = .nan
        · exact .inr ⟨(decode_eq_nan_iff hbits).1 hnan, (decode_eq_nan_iff hbits').1 (hdecode ▸ hnan)⟩
        · exact .inl (eq_of_decode_eq hbits hbits' h hnan hdecode)
      · exact absurd (Value.read?_special h (heq ▸ hq')) hne'
    · obtain h' | ⟨q', -, hq', hrounds'⟩ := special_or_roundsTo hf hbits'
      · exact absurd (Value.read?_special h' (heq ▸ hq)) hne
      · rw [heq, hq'] at hq
        obtain rfl := Option.some.inj hq
        exact .inl (hrounds.unique hrounds')
  · rintro (rfl | ⟨hnan, hnan'⟩)
    · rfl
    · rw [(decode_eq_nan_iff hbits).2 hnan, (decode_eq_nan_iff hbits').2 hnan']

/-- **Texts of floating-point numbers are faithful**, in the formats of 32 and of 64 bits. The text of a
finite number other than zero is the shortest decimal that rounds back to its pattern, in the layout
that belongs to its size. Two patterns share a text only if both are nan. -/
theorem spell_faithful (hf : f = single ∨ f = double) :
    (∀ bits < f.patterns, f.IsFinite bits → f.number bits ≠ 0 →
      ∃ q, f.IsFaithful bits (f.decode bits).spell.toList q) ∧
    ∀ bits < f.patterns, ∀ bits' < f.patterns,
      (f.decode bits).spell = (f.decode bits').spell ↔ bits = bits' ∨ f.IsNan bits ∧ f.IsNan bits' := by
  refine ⟨fun bits hbits hfinite hne => ?_, fun bits hbits bits' hbits' => spell_inj hf hbits hbits'⟩
  obtain ⟨negative, m, hm, hlt, rfl⟩ := exists_pattern_finite hbits hfinite hne
  obtain ⟨q, -, faithful⟩ := exists_isFaithful hf negative hm hlt
  exact ⟨q, faithful⟩

/-- The least of all numbers, whose text has a digit added behind its point. -/
theorem spell_faithful_least :
    1 < double.patterns ∧ 2 < double.patterns ∧ double.IsFinite 1 ∧ double.number 1 ≠ 0 ∧
      (double.decode 1).spell = "5.0E-324" ∧ (∃ q, double.IsFaithful 1 "5.0E-324".toList q) ∧
      (double.decode 1).spell ≠ (double.decode 2).spell := by
  have hfirst : 1 < double.patterns := by decide
  have hsecond : 2 < double.patterns := by decide
  have hfinite : double.IsFinite 1 := by
    unfold IsFinite
    decide
  have hnan : ¬double.IsNan 1 := by
    unfold IsNan
    decide
  have hnumber : double.number 1 ≠ 0 := by
    have hone : double.number 1 = double.magnitude 1 := double.number_pattern false (m := 1) (by decide)
    rw [hone, ← double.magnitude_zero]
    exact (double.strictMono_magnitude one_pos).ne'
  have htext : (double.decode 1).spell = "5.0E-324" := by decide +kernel
  obtain ⟨hfaithful, hinj⟩ := spell_faithful (.inr rfl : double = single ∨ double = double)
  refine ⟨hfirst, hsecond, hfinite, hnumber, htext, ?_, fun heq => ?_⟩
  · rw [← htext]
    exact hfaithful 1 hfirst hfinite hnumber
  · rw [hinj 1 hfirst 2 hsecond] at heq
    exact heq.elim (by decide) fun h => hnan h.1

end Format
end Ieee
end ClassAtlas.Decimal
