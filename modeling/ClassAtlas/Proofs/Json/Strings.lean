import ClassAtlas.Json.Parser
import Mathlib.Algebra.GroupWithZero.Nat

/-! Strings in JSON are read back, and are harmless where they stand.

A character is written as itself, as an escape of two characters, or by the digits of its number.
Whichever it is, reading finds one piece of a string there and goes on behind it
(`pieces_escapeChar`). A number stands for its character by itself, since none of those written so
is half of a surrogate pair (`assemble_pieces`). So a quoted string is read as the string,
whatever follows it (`stringBody_quote`).

None of the characters that need digits is left in a quoted string (`not_isCoded_quote`): no angle
bracket, no ampersand, no line separator and no control character, so no line break either. -/
namespace ClassAtlas.Json

/-! ### Digits -/

theorem hexDigit?_hexDigit {d : Nat} (h : d < 16) : hexDigit? (Bytes.hexDigit d) = some d := by
  have hall : ∀ d : Fin 16, hexDigit? (Bytes.hexDigit d) = some d.val := by decide
  exact hall ⟨d, h⟩

theorem hexNumber_hexDigits (width k n m : Nat) (rest : List Char) :
    hexNumber (width + k) n (Text.Quoted.hexDigits width m ++ rest) =
      hexNumber k (n * 16 ^ width + m % 16 ^ width) rest := by
  induction width generalizing k m rest with
  | zero => simp [Text.Quoted.hexDigits, Nat.mod_one]
  | succ width ih =>
    have hdigit := hexDigit?_hexDigit (Nat.mod_lt m (by decide : 0 < 16))
    have hvalue : 16 * (n * 16 ^ width + m / 16 % 16 ^ width) + m % 16 =
        n * 16 ^ (width + 1) + m % 16 ^ (width + 1) := by
      rw [Nat.pow_succ', Nat.mod_mul, Nat.mul_left_comm n 16]
      omega
    rw [Text.Quoted.hexDigits, List.append_assoc, Nat.add_assoc, Nat.add_comm 1 k, ih,
      List.cons_append, List.nil_append, hexNumber]
    simp only [hdigit, hvalue]

theorem hexNumber_four {n : Nat} (h : n < 0x10000) (rest : List Char) :
    hexNumber 4 0 (Text.Quoted.hexDigits 4 n ++ rest) = .ok (n, rest) := by
  have hmod : n % 16 ^ 4 = n := by omega
  have hnumber := hexNumber_hexDigits 4 0 0 n rest
  rwa [Nat.zero_mul, Nat.zero_add, hmod] at hnumber

/-! ### Characters -/

theorem lt_of_isCoded {c : Char} (h : isCoded c) : c.toNat < 0xD800 := by
  simp only [isCoded, Bool.or_eq_true, decide_eq_true_eq] at h
  obtain ((((h | rfl) | rfl) | rfl) | h) | h := h
  · omega
  · decide
  · decide
  · decide
  · omega
  · omega

/-- An escape of two characters is never taken for digits, and stands for its character. -/
theorem escaped?_of_escapeLetter? {c letter : Char} (h : escapeLetter? c = some letter) :
    letter ≠ 'u' ∧ escaped? letter = some c := by
  have hc := Char.ofNat_toNat c
  unfold escapeLetter? at h
  split at h <;> simp_all [escaped?] <;> simp [← h, ← hc]

/-- The piece that a character is written as. -/
def Piece.of (c : Char) : Piece :=
  match escapeLetter? c with
  | some _ => .char c
  | none => if isCoded c then .unit (UInt16.ofNat c.toNat) else .char c

/-- A written character is one piece, whatever follows. -/
theorem pieces_escapeChar (fuel : Nat) (found : List Piece) (c : Char) (rest : List Char) :
    pieces (fuel + 1) found (escapeChar c ++ rest) = pieces fuel (.of c :: found) rest := by
  unfold escapeChar Piece.of
  cases hletter : escapeLetter? c with
  | some letter =>
    -- `hu` keeps the letter from being read as the start of four digits.
    obtain ⟨hu, hescaped⟩ := escaped?_of_escapeLetter? hletter
    simp [pieces, hescaped]
  | none =>
    by_cases hcoded : isCoded c
    · have hlt := lt_of_isCoded hcoded
      have hnumber := hexNumber_four (n := c.toNat) (by omega) rest
      simp [pieces, hcoded, hnumber]
    · have hquote : c ≠ '"' := by rintro rfl; simp [escapeLetter?] at hletter
      have hslash : c ≠ '\\' := by rintro rfl; simp [escapeLetter?] at hletter
      have hcontrol : ¬ c.toNat < 0x20 := by
        intro h
        exact hcoded (by simp [isCoded, h])
      simp [pieces, hcoded, hcontrol]

/-- No character that is written by its number starts a surrogate pair. -/
theorem assemble_unit {c : Char} (h : isCoded c) (ps : List Piece) :
    assemble (.unit (UInt16.ofNat c.toNat) :: ps) = c :: assemble ps := by
  have hlt := lt_of_isCoded h
  have htoNat : (UInt16.ofNat c.toNat).toNat = c.toNat := by
    rw [UInt16.toNat_ofNat']
    omega
  have hhigh : Text.Units.isHigh (UInt16.ofNat c.toNat) = false := by
    simp [Text.Units.isHigh, htoNat]
    omega
  have hlow : Text.Units.isLow (UInt16.ofNat c.toNat) = false := by
    simp [Text.Units.isLow, htoNat]
    omega
  have hsingle : Text.Units.single (UInt16.ofNat c.toNat) = c := by
    simp [Text.Units.single, hhigh, hlow, htoNat]
  cases ps with
  | nil => simp [assemble, hsingle]
  | cons p ps =>
    cases p with
    | char d => simp [assemble, hsingle]
    | unit v => simp [assemble, hsingle, hhigh]

theorem assemble_pieces (cs : List Char) : assemble (cs.map Piece.of) = cs := by
  induction cs with
  | nil => rfl
  | cons c cs ih =>
    rw [List.map_cons, Piece.of]
    split
    · rw [assemble, ih]
    · split
      · next hcoded => rw [assemble_unit hcoded, ih]
      · rw [assemble, ih]

/-! ### Strings -/

theorem pieces_escaped (cs : List Char) {fuel : Nat} (hfuel : cs.length < fuel) (found : List Piece)
    (rest : List Char) :
    pieces fuel found (cs.flatMap escapeChar ++ '"' :: rest) =
      .ok (found.reverse ++ cs.map Piece.of, rest) := by
  induction cs generalizing fuel found with
  | nil =>
    obtain ⟨fuel, rfl⟩ := Nat.exists_eq_add_one_of_ne_zero (Nat.ne_zero_of_lt hfuel)
    simp [pieces]
  | cons c cs ih =>
    obtain ⟨fuel, rfl⟩ := Nat.exists_eq_add_one_of_ne_zero (Nat.ne_zero_of_lt hfuel)
    rw [List.flatMap_cons, List.append_assoc, pieces_escapeChar, ih (by simpa using hfuel)]
    simp

theorem length_le_escaped (cs : List Char) : cs.length ≤ (cs.flatMap escapeChar).length := by
  induction cs with
  | nil => exact Nat.le_refl 0
  | cons c cs ih =>
    have hone : 1 ≤ (escapeChar c).length := by
      unfold escapeChar
      split
      · simp
      · split <;> simp
    rw [List.flatMap_cons, List.length_append, List.length_cons]
    omega

/-- **A quoted string is read as the string**, whatever follows it. -/
theorem stringBody_quote (s : String) (rest : List Char) :
    stringBody (s.toList.flatMap escapeChar ++ '"' :: rest) = .ok (s, rest) := by
  have hfuel : s.toList.length < (s.toList.flatMap escapeChar ++ '"' :: rest).length + 1 := by
    have hlength := length_le_escaped s.toList
    rw [List.length_append]
    omega
  rw [stringBody, pieces_escaped s.toList hfuel]
  show Except.ok (String.ofList (assemble (s.toList.map Piece.of)), rest) = _
  rw [assemble_pieces, String.ofList_toList]

/-! ### What a quoted string shows -/

theorem not_isCoded_hexDigits (width n : Nat) : ∀ c ∈ Text.Quoted.hexDigits width n, isCoded c = false := by
  induction width generalizing n with
  | zero => simp [Text.Quoted.hexDigits]
  | succ width ih =>
    have hall : ∀ d : Fin 16, isCoded (Bytes.hexDigit d) = false := by decide
    intro c hc
    rw [Text.Quoted.hexDigits, List.mem_append, List.mem_singleton] at hc
    obtain hc | rfl := hc
    · exact ih _ c hc
    · exact hall ⟨n % 16, Nat.mod_lt _ (by decide)⟩

theorem not_isCoded_escapeChar (c : Char) : ∀ x ∈ escapeChar c, isCoded x = false := by
  intro x hx
  unfold escapeChar at hx
  split at hx
  · next letter hletter =>
    have hescaped := (escaped?_of_escapeLetter? hletter).2
    rw [List.mem_cons, List.mem_singleton] at hx
    obtain rfl | rfl := hx
    · decide
    · unfold escaped? at hescaped
      split at hescaped <;> first | decide | cases hescaped
  · split at hx
    · rw [List.mem_cons, List.mem_cons] at hx
      obtain rfl | rfl | hx := hx
      · decide
      · decide
      · exact not_isCoded_hexDigits 4 c.toNat x hx
    · next hcoded =>
      rw [List.mem_singleton.1 hx]
      simpa using hcoded

theorem not_isCoded_quote (s : String) : ∀ c ∈ quote s, isCoded c = false := by
  intro c hc
  simp only [quote, List.mem_cons, List.mem_append, List.mem_flatMap, List.not_mem_nil,
    or_false, List.cons_append] at hc
  obtain rfl | ⟨x, -, hc⟩ | rfl := hc
  · decide
  · exact not_isCoded_escapeChar x c hc
  · decide

end ClassAtlas.Json
