import ClassAtlas.Proofs.Web.Paths
import ClassAtlas.Web.Server

/-! Text that is written with escapes.

A byte is spelled by itself or by an escape, and what spells every byte of a text is read as the text
(`unescape_flatMap`). Queries and paths are escaped so (`unescape_escapeQuery`,
`unescape_escapePath`). A header escapes only bytes beyond ASCII and leaves percent signs as they are:
it is read as the address in it if that has no percent sign (`unescape_asciiText`), and a text read
from it is shorter than the address by two bytes for every percent sign
(`length_unescape_asciiText`). -/
namespace ClassAtlas.Web

/-! ### One byte -/

/-- Bytes that take an address apart, and those that no address has. -/
def isDelimiter (b : UInt8) : Bool := isControl b || isOneOf "/.?#&;=" b

theorem isChar_of_not_isDelimiter {c : Char} (hc : c ∈ "/.?#&;=".toList) {b : UInt8} (h : isDelimiter b = false) :
    isChar c b = false := by
  have hnone := (Bool.or_eq_false_iff.1 h).2
  rw [isOneOf, List.any_eq_false] at hnone
  simpa using hnone c hc

theorem forall_byte {P : UInt8 → Prop} (h : ∀ n < 256, P (UInt8.ofNat n)) (b : UInt8) : P b := by
  have hb := h b.toNat b.toNat_lt
  rwa [UInt8.ofNat_toNat] at hb

theorem isDelimiter_of_hexValue? {b : UInt8} : (hexValue? b).isSome = true → isDelimiter b = false := by
  refine forall_byte (P := fun b => (hexValue? b).isSome = true → isDelimiter b = false) ?_ b
  decide +kernel

/-- The first sixteen digits are those of hexadecimal numbers. -/
structure IsHex (digit : Nat → Char) : Prop where
  ascii : ∀ n < 16, (digit n).toNat < 128
  value : ∀ n < 16, hexValue? (UInt8.ofNat (digit n).toNat) = some n

theorem isHex_hexDigit : IsHex Bytes.hexDigit where
  ascii := by decide
  value := by decide

theorem isHex_upperDigit : IsHex upperDigit where
  ascii := by decide
  value := by decide

section EscapeByte
variable {digit : Nat → Char} (hdigit : IsHex digit)
include hdigit

theorem escapeByte_eq (b : UInt8) :
    escapeByte digit b = [37, UInt8.ofNat (digit (b.toNat / 16)).toNat, UInt8.ofNat (digit (b.toNat % 16)).toNat] := by
  have hb := b.toNat_lt
  have hhigh := hdigit.ascii (b.toNat / 16) (by omega)
  have hlow := hdigit.ascii (b.toNat % 16) (by omega)
  rw [escapeByte, bytesOf, Text.Utf8.encode, String.toList_ofList]
  simp only [List.flatMap_cons, List.flatMap_nil, Text.Utf8.encodeChar_ascii hhigh, Text.Utf8.encodeChar_ascii hlow]
  rfl

/-- An escape is a percent sign and two digits. -/
theorem exists_escapeByte (b : UInt8) : ∃ x y, escapeByte digit b = [37, x, y] ∧
    (hexValue? x = some (b.toNat / 16)) ∧ hexValue? y = some (b.toNat % 16) := by
  have hb := b.toNat_lt
  exact ⟨_, _, escapeByte_eq hdigit b, hdigit.value _ (by omega), hdigit.value _ (by omega)⟩

theorem isDelimiter_escapeByte {b x : UInt8} (hx : x ∈ escapeByte digit b) : isDelimiter x = false := by
  obtain ⟨high, low, heq, hhigh, hlow⟩ := exists_escapeByte hdigit b
  rw [heq] at hx
  simp only [List.mem_cons, List.not_mem_nil, or_false] at hx
  rcases hx with rfl | rfl | rfl
  · decide
  · exact isDelimiter_of_hexValue? (by rw [hhigh, Option.isSome_some])
  · exact isDelimiter_of_hexValue? (by rw [hlow, Option.isSome_some])

end EscapeByte

/-! ### Spelling -/

/-- What is read as one byte, whatever follows. -/
def Spells (part : Part) (text : Bytes) (b : UInt8) : Prop :=
  ∀ rest, unescape part (text ++ rest) = (b :: ·) <$> unescape part rest

section Spells
variable {part : Part} {b : UInt8}

theorem spells_escapeByte {digit : Nat → Char} (hdigit : IsHex digit) (hpart : ∀ n, mayEscape part n = true)
    (b : UInt8) : Spells part (escapeByte digit b) b := by
  intro rest
  obtain ⟨high, low, heq, hhigh, hlow⟩ := exists_escapeByte hdigit b
  have hbyte : b.toNat / 16 * 16 + b.toNat % 16 = b.toNat := by omega
  rw [heq, List.cons_append, List.cons_append, List.cons_append, List.nil_append, unescape, if_pos (by decide)]
  simp only [hhigh, hlow, hpart, hbyte, if_true]
  rw [UInt8.ofNat_toNat]

theorem spells_self (hpart : part ≠ .host ∧ part ≠ .zone) (hpercent : isChar '%' b = false)
    (hplus : part = .query → isChar '+' b = false) : Spells part [b] b := by
  intro rest
  have hhost : ¬ ((part = .host ∨ part = .zone) ∧ b < 128 ∧ (!isHostByte b) = true) := by
    simp [hpart]
  have hquery : ¬ (part = .query ∧ isChar '+' b = true) := by
    rintro ⟨rfl, h⟩
    rw [hplus rfl] at h
    cases h
  rw [List.singleton_append]
  nth_rewrite 1 [unescape.eq_def]
  simp only [hpercent, if_neg hquery, if_neg hhost, Bool.false_eq_true, if_false]

theorem spells_plus : Spells .query [43] 32 := by
  intro rest
  rw [List.singleton_append]
  nth_rewrite 1 [unescape.eq_def]
  rfl

theorem unescape_flatMap {f : UInt8 → Bytes} {bs : Bytes} (h : ∀ b ∈ bs, Spells part (f b) b) :
    unescape part (bs.flatMap f) = .ok bs := by
  induction bs with
  | nil => rw [List.flatMap_nil, unescape]
  | cons b bs ih =>
    rw [List.flatMap_cons, h b List.mem_cons_self, ih fun c hc => h c (List.mem_cons_of_mem b hc)]
    rfl

end Spells

theorem isUnreserved_plain {b : UInt8} :
    isUnreserved b = true → isOneOf "%+&;=#" b = false ∧ isControl b = false := by
  refine forall_byte (P := fun b => isUnreserved b = true → isOneOf "%+&;=#" b = false ∧ isControl b = false) ?_ b
  decide +kernel

/-! ### Values of a query -/

/-- A byte of a value in a query. A blank is written as a plus sign. -/
def queryByte (b : UInt8) : Bytes :=
  if isUnreserved b then [b] else if b = 32 then [43] else escapeByte upperDigit b

/-- A value as a query shows it. -/
def escapeQuery (value : Bytes) : Bytes := value.flatMap queryByte

theorem unescape_escapeQuery (value : Bytes) : unescape .query (escapeQuery value) = .ok value := by
  refine unescape_flatMap fun b _ => ?_
  unfold queryByte
  split
  · rename_i hb
    have hplain := (isUnreserved_plain hb).1
    simp only [isOneOf, String.reduceToList, List.any_cons, Bool.or_eq_false_iff] at hplain
    exact spells_self (by decide) hplain.1 fun _ => hplain.2.1
  · split
    · rename_i hb
      rw [hb]
      exact spells_plus
    · exact spells_escapeByte isHex_upperDigit (fun _ => rfl) b

/-- Nothing in an escaped value ends it. -/
theorem mem_escapeQuery {value : Bytes} {x : UInt8} (hx : x ∈ escapeQuery value) :
    (isChar '&' x = false ∧ isChar ';' x = false) ∧ isChar '#' x = false ∧ isControl x = false := by
  obtain ⟨b, _, hb⟩ := List.mem_flatMap.1 hx
  unfold queryByte at hb
  split at hb
  · rename_i hunreserved
    rw [List.mem_singleton.1 hb]
    have hplain := isUnreserved_plain hunreserved
    simp only [isOneOf, String.reduceToList, List.any_cons, Bool.or_eq_false_iff] at hplain
    simp [hplain]
  · split at hb
    · rw [List.mem_singleton.1 hb]
      decide
    · have hx' := isDelimiter_escapeByte isHex_upperDigit hb
      exact ⟨⟨isChar_of_not_isDelimiter (by decide) hx', isChar_of_not_isDelimiter (by decide) hx'⟩,
        isChar_of_not_isDelimiter (by decide) hx', (Bool.or_eq_false_iff.1 hx').1⟩

/-! ### Paths -/

def pathByte (b : UInt8) : Bytes := if isPathByte b then [b] else escapeByte upperDigit b

theorem escapePath_eq (path : Bytes) : escapePath path = path.flatMap pathByte := rfl

theorem isPathByte_plain {b : UInt8} : isPathByte b = true → isChar '%' b = false := by
  refine forall_byte (P := fun b => isPathByte b = true → isChar '%' b = false) ?_ b
  decide +kernel

theorem unescape_escapePath (path : Bytes) : unescape .path (escapePath path) = .ok path := by
  rw [escapePath_eq]
  refine unescape_flatMap fun b _ => ?_
  unfold pathByte
  split
  · rename_i hb
    exact spells_self (by decide) (isPathByte_plain hb) nofun
  · exact spells_escapeByte isHex_upperDigit (fun _ => rfl) b

/-- An escape brings no segment and no dot. -/
theorem keepsSegments_of_escape {digit : Nat → Char} (hdigit : IsHex digit) {p : UInt8 → Bool}
    (hp : p 47 = true ∧ p 46 = true) : KeepsSegments fun b => if p b then [b] else escapeByte digit b where
  kept := by
    rintro b (rfl | rfl)
    · exact if_pos hp.1
    · exact if_pos hp.2
  other := by
    intro b hslash hdot
    by_cases hb : p b = true
    · exact ⟨b, [], if_pos hb, hdot, by simpa using hslash⟩
    · obtain ⟨x, y, heq, _⟩ := exists_escapeByte hdigit b
      refine ⟨37, [x, y], (if_neg hb).trans heq, by decide, fun z hz => ?_⟩
      have hz' := isChar_of_not_isDelimiter (c := '/') (by decide) (isDelimiter_escapeByte hdigit (heq ▸ hz))
      rintro rfl
      exact absurd hz' (by decide)

theorem keepsSegments_pathByte : KeepsSegments pathByte :=
  keepsSegments_of_escape isHex_upperDigit (by decide)

/-! ### Headers -/

def asciiByte (b : UInt8) : Bytes := if b < 128 then [b] else escapeByte Bytes.hexDigit b

/-- An address as a header shows it. -/
def asciiText (address : Bytes) : Bytes := address.flatMap asciiByte

theorem keepsSegments_asciiByte : KeepsSegments asciiByte := by
  have h := keepsSegments_of_escape isHex_hexDigit (p := fun b => decide (b < 128)) (by decide)
  simp only [decide_eq_true_eq] at h
  exact h

theorem mem_asciiByte {b x : UInt8} (hx : x ∈ asciiByte b) :
    x.toNat < 128 ∧ (isDelimiter x = true → asciiByte b = [x] ∧ b = x) := by
  unfold asciiByte at hx ⊢
  split at hx
  · rename_i hb
    obtain rfl := List.mem_singleton.1 hx
    exact ⟨UInt8.lt_iff_toNat_lt.1 hb, fun _ => ⟨if_pos hb, rfl⟩⟩
  · have hdelimiter := isDelimiter_escapeByte isHex_hexDigit hx
    refine ⟨?_, fun h => absurd h (by simp [hdelimiter])⟩
    have hb := b.toNat_lt
    rw [escapeByte_eq isHex_hexDigit] at hx
    simp only [List.mem_cons, List.not_mem_nil, or_false] at hx
    have hhigh := isHex_hexDigit.ascii (b.toNat / 16) (by omega)
    have hlow := isHex_hexDigit.ascii (b.toNat % 16) (by omega)
    rcases hx with rfl | rfl | rfl
    · decide
    · rw [UInt8.toNat_ofNat']
      omega
    · rw [UInt8.toNat_ofNat']
      omega

theorem mem_asciiText {address : Bytes} {x : UInt8} (hx : x ∈ asciiText address) :
    x.toNat < 128 ∧ (isDelimiter x = true → x ∈ address) := by
  obtain ⟨b, hb, hx⟩ := List.mem_flatMap.1 hx
  obtain ⟨hascii, hdelimiter⟩ := mem_asciiByte hx
  exact ⟨hascii, fun h => (hdelimiter h).2 ▸ hb⟩

theorem isControl_asciiText_iff {address : Bytes} :
    (∀ b ∈ asciiText address, isControl b = false) ↔ ∀ b ∈ address, isControl b = false := by
  constructor
  · intro h b hb
    cases hcontrol : isControl b with
    | false => rfl
    | true =>
      have hlow : b < 128 := by
        simp only [isControl, Bool.or_eq_true, decide_eq_true_eq, beq_iff_eq] at hcontrol
        rcases hcontrol with hlt | rfl
        · exact UInt8.lt_trans hlt (by decide)
        · decide
      have hmem : b ∈ asciiText address := List.mem_flatMap.2 ⟨b, hb, by simp [asciiByte, hlow]⟩
      exact hcontrol.symm.trans (h b hmem)
  · intro h b hb
    cases hcontrol : isControl b with
    | false => rfl
    | true =>
      have hmem := (mem_asciiText hb).2 (by simp [isDelimiter, hcontrol])
      exact hcontrol.symm.trans (h b hmem)

/-- A header is text. -/
theorem bytesOf_headerText (address : Bytes) : bytesOf (headerText address) = asciiText address := by
  have hascii : ∀ bs : Bytes, (∀ x ∈ bs, x.toNat < 128) →
      bytesOf (String.ofList (bs.map fun x => Char.ofNat x.toNat)) = bs := by
    intro bs h
    rw [bytesOf, Text.Utf8.encode, String.toList_ofList, List.flatMap_map]
    refine (List.flatMap_congr fun x hx => ?_).trans (List.flatMap_singleton' bs)
    have hvalue : ∀ n < 128, (Char.ofNat n).toNat = n := by decide
    have hx := hvalue x.toNat (h x hx)
    rw [Text.Utf8.encodeChar_ascii (hx.trans_lt (h x ‹_›)), hx, UInt8.ofNat_toNat]
  have htext := hascii (asciiText address) fun x hx => (mem_asciiText hx).1
  have hheader : headerText address = Text.Utf8.decodeLossy (asciiText address) := rfl
  rw [hheader, ← htext]
  exact congrArg bytesOf (Text.Utf8.decodeLossy_encode _)

/-- A header is cut where the address in it is. -/
theorem cut_asciiText {c : Char} (hc : c ∈ "/.?#&;=".toList) (address : Bytes) :
    (cut (isChar c) (asciiText address)).1 = asciiText (cut (isChar c) address).1 := by
  have hascii : ∀ c ∈ "/.?#&;=".toList, c.toNat < 128 := forall_mem_of_all (by decide)
  have hnone : ∀ bs : Bytes, (∀ b ∈ bs, isChar c b = false) → ∀ x ∈ asciiText bs, isChar c x = false := by
    intro bs h x hx
    cases hdelimiter : isDelimiter x with
    | false => exact isChar_of_not_isDelimiter hc hdelimiter
    | true => exact h x ((mem_asciiText hx).2 hdelimiter)
  rcases cut_cases (isChar c) address with ⟨hcut, hmem⟩ | ⟨before, b, after, rfl, hcut, hbefore, hb⟩
  · rw [hcut, cut_of_not_mem (hnone _ hmem)]
  · have hlow : b < 128 := by
      rw [UInt8.lt_iff_toNat_lt, isChar_iff.1 hb]
      exact hascii c hc
    have hsplit : asciiText (before ++ b :: after) = asciiText before ++ b :: asciiText after := by
      rw [asciiText, List.flatMap_append, List.flatMap_cons, asciiByte, if_pos hlow]
      rfl
    rw [hcut, hsplit, cut_append (hnone _ hbefore) hb]

theorem unescape_asciiText {address : Bytes} (h : ∀ b ∈ address, isChar '%' b = false) :
    unescape .path (asciiText address) = .ok address := by
  refine unescape_flatMap fun b hb => ?_
  unfold asciiByte
  split
  · exact spells_self (by decide) (h b hb) nofun
  · exact spells_escapeByte isHex_hexDigit (fun _ => rfl) b

/-- Escapes of a header make up for the bytes that they add, percent signs of the address do not. -/
theorem length_unescape_asciiText {address out : Bytes} (h : unescape .path (asciiText address) = .ok out) :
    out.length + 2 * address.countP (isChar '%') = address.length := by
  have hbyte : ∀ b, (asciiByte b).length + 2 * [b].countP (isChar '%') = 1 + 2 * (asciiByte b).countP (isChar '%') := by
    intro b
    unfold asciiByte
    split
    · rfl
    · rename_i hb
      obtain ⟨x, y, heq, hx, hy⟩ := exists_escapeByte isHex_hexDigit b
      have hpercent : isChar '%' b = false := by
        by_contra hpercent
        rw [Bool.not_eq_false, isChar_iff] at hpercent
        exact hb (UInt8.lt_iff_toNat_lt.2 (by rw [hpercent]; decide))
      rw [heq]
      simp [List.countP_cons, hpercent, isChar_percent_of_hexValue? hx, isChar_percent_of_hexValue? hy]
      decide
  have hsum : (asciiText address).length + 2 * address.countP (isChar '%') =
      address.length + 2 * (asciiText address).countP (isChar '%') := by
    clear h
    induction address with
    | nil => rfl
    | cons b address ih =>
      have hb := hbyte b
      rw [List.countP_singleton] at hb
      rw [asciiText, List.flatMap_cons, List.length_append, List.countP_append, List.countP_cons, List.length_cons]
      rw [asciiText] at ih
      omega
  have hout := length_unescape h
  omega

end ClassAtlas.Web
