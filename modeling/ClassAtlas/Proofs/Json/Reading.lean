import ClassAtlas.Proofs.Json.Strings
import Mathlib.Algebra.BigOperators.Group.List.Basic
import Mathlib.Data.List.DropRight

/-! JSON values are read back from either of their written forms.

A text is read as a value if reading finds the value at its front and goes on behind it
(`ReadsAs`), with blanks before it or without. Fuel enough for that is the length of the text,
which is what lets a list of texts be read part by part: each is shorter than the whole. Lists and
objects are read whatever blanks are put between their parts (`readsAs_array`, `readsAs_object`), so
one line and the indented form are the same argument (`Value.Fits.readsAs_compact`,
`Value.Fits.readsAs_indented`).

Several values may stand one behind the other, and are read in turn (`parseAll_written`). -/
namespace ClassAtlas.Json

/-! ### Blanks -/

theorem skipBlanks_append {gap : List Char} (h : ∀ c ∈ gap, isBlank c) (cs : List Char) :
    skipBlanks (gap ++ cs) = skipBlanks cs := by
  rw [skipBlanks, List.dropWhile_append_of_pos h, skipBlanks]

theorem skipBlanks_cons {c : Char} (h : isBlank c = false) (cs : List Char) :
    skipBlanks (c :: cs) = c :: cs := by
  rw [skipBlanks, List.dropWhile_cons_of_neg (by simp [h])]

theorem skipBlanks_idem (cs : List Char) : skipBlanks (skipBlanks cs) = skipBlanks cs :=
  List.dropWhile_idempotent isBlank cs

theorem isBlank_nil : ∀ c ∈ ([] : List Char), isBlank c := nofun

theorem isBlank_newline (level : Nat) : ∀ c ∈ newline level, isBlank c := by
  intro c hc
  rw [newline, List.mem_cons, List.mem_replicate] at hc
  obtain rfl | ⟨-, rfl⟩ := hc <;> decide

/-! ### Steps of the reader -/

section Steps
-- The equations of the reader are used here only. What follows goes by these steps.
attribute [local simp] value elements members
variable {fuel depth : Nat} {cs body tail rest : List Char}

theorem value_nil : value (fuel + 1) depth [] = .error .endOfInput := by
  simp [skipBlanks]

theorem value_string {s : String} (h : skipBlanks cs = '"' :: body) (hbody : stringBody body = .ok (s, rest)) :
    value (fuel + 1) depth cs = .ok (.string s, rest) := by
  simp [h, hbody]

theorem value_array_nil (h : skipBlanks cs = '[' :: body) (hbody : skipBlanks body = ']' :: rest) :
    value (fuel + 1) (depth + 1) cs = .ok (.array [], rest) := by
  simp [h, hbody]

theorem value_array {vs : List Value} (h : skipBlanks cs = '[' :: body)
    (hfront : ∀ t, skipBlanks body ≠ ']' :: t)
    (hbody : elements fuel depth (skipBlanks body) = .ok (vs, rest)) :
    value (fuel + 1) (depth + 1) cs = .ok (.array vs, rest) := by
  simp [h, hbody]

theorem value_object_nil (h : skipBlanks cs = '\x7b' :: body) (hbody : skipBlanks body = '\x7d' :: rest) :
    value (fuel + 1) (depth + 1) cs = .ok (.object [], rest) := by
  simp [h, hbody]

theorem value_object {ms : List (String × Value)} (h : skipBlanks cs = '\x7b' :: body)
    (hfront : ∀ t, skipBlanks body ≠ '\x7d' :: t)
    (hbody : members fuel depth (skipBlanks body) = .ok (ms, rest)) :
    value (fuel + 1) (depth + 1) cs = .ok (.object ms, rest) := by
  simp [h, hbody]

theorem elements_last {v : Value} (hv : value fuel depth cs = .ok (v, tail))
    (htail : skipBlanks tail = ']' :: rest) : elements (fuel + 1) depth cs = .ok ([v], rest) := by
  simp [hv, htail]

theorem elements_cons {v : Value} {vs : List Value} (hv : value fuel depth cs = .ok (v, tail))
    (htail : skipBlanks tail = ',' :: body) (hbody : elements fuel depth body = .ok (vs, rest)) :
    elements (fuel + 1) depth cs = .ok (v :: vs, rest) := by
  simp [hv, htail, hbody]

theorem members_last {k : String} {v : Value} {mid : List Char} (h : skipBlanks cs = '"' :: body)
    (hkey : stringBody body = .ok (k, ':' :: mid)) (hv : value fuel depth mid = .ok (v, tail))
    (htail : skipBlanks tail = '\x7d' :: rest) : members (fuel + 1) depth cs = .ok ([(k, v)], rest) := by
  simp [h, hkey, skipBlanks_cons (c := ':') (by decide), hv, htail]

theorem members_cons {k : String} {v : Value} {ms : List (String × Value)} {mid others : List Char}
    (h : skipBlanks cs = '"' :: body) (hkey : stringBody body = .ok (k, ':' :: mid))
    (hv : value fuel depth mid = .ok (v, tail)) (htail : skipBlanks tail = ',' :: others)
    (hothers : members fuel depth others = .ok (ms, rest)) :
    members (fuel + 1) depth cs = .ok ((k, v) :: ms, rest) := by
  simp [h, hkey, skipBlanks_cons (c := ':') (by decide), hv, htail, hothers]

end Steps

/-! ### Texts that are read as a value -/

/-- A text is read as a value, whatever blanks stand before it, and what stands behind it is left. -/
def ReadsAs (depth : Nat) (text : List Char) (v : Value) : Prop :=
  ∀ fuel cs rest, skipBlanks cs = skipBlanks (text ++ rest) → text.length ≤ fuel →
    value fuel depth cs = .ok (v, rest)

theorem ReadsAs.length_pos {depth : Nat} {text : List Char} {v : Value} (h : ReadsAs depth text v) :
    0 < text.length := by
  by_contra hzero
  have hread := h 0 text [] (by rw [List.append_nil]) (Nat.le_of_not_lt hzero)
  simp [value] at hread

/-- What starts with a closing bracket is not read as a value. -/
theorem ReadsAs.front {depth : Nat} {text : List Char} {v : Value} (h : ReadsAs depth text v)
    (rest t : List Char) : skipBlanks (text ++ rest) ≠ ']' :: t := by
  intro heq
  obtain ⟨fuel, hfuel⟩ := Nat.exists_eq_add_one_of_ne_zero (Nat.ne_of_gt h.length_pos)
  have hread := h (fuel + 1) (text ++ rest) rest rfl (Nat.le_of_eq hfuel)
  rw [value, heq] at hread
  simp [isDigit] at hread

theorem skipBlanks_quote (s : String) (rest : List Char) :
    skipBlanks (quote s ++ rest) = '"' :: (s.toList.flatMap escapeChar ++ '"' :: rest) := by
  simp [quote, skipBlanks_cons (c := '"') (by decide)]

theorem readsAs_string (depth : Nat) (s : String) : ReadsAs depth (quote s) (.string s) := by
  intro fuel cs rest hcs hfuel
  cases fuel with
  | zero => simp [quote] at hfuel
  | succ fuel =>
    rw [skipBlanks_quote] at hcs
    exact value_string hcs (stringBody_quote s rest)

theorem readsAs_null (depth : Nat) : ReadsAs depth "null".toList .null := by
  intro fuel cs rest hcs hfuel
  cases fuel with
  | zero => simp at hfuel
  | succ fuel =>
    rw [value, hcs]
    rfl

theorem readsAs_bool (depth : Nat) (b : Bool) :
    ReadsAs depth (if b then "true" else "false").toList (.bool b) := by
  intro fuel cs rest hcs hfuel
  cases fuel with
  | zero => cases b <;> simp at hfuel
  | succ fuel =>
    rw [value, hcs]
    cases b <;> rfl

/-! ### Lists and objects -/

theorem joined_cons_cons (separator part other : List Char) (parts : List (List Char)) :
    joined separator (part :: other :: parts) = part ++ (separator ++ joined separator (other :: parts)) := by
  rw [joined, List.append_assoc]
  simp

theorem joined_cons (separator part : List Char) (parts : List (List Char)) :
    joined separator (part :: parts) = part ++ parts.flatMap (separator ++ ·) := by
  induction parts generalizing part with
  | nil => rw [joined, List.flatMap_nil, List.append_nil]
  | cons other parts ih => rw [joined_cons_cons, ih, List.flatMap_cons, List.append_assoc]

section Parts
variable {depth : Nat} {first gap last space : List Char} {write : Value → List Char}

/-- Elements with separators between them are read up to the closing bracket. -/
theorem elements_joined (hgap : ∀ c ∈ gap, isBlank c) (hlast : ∀ c ∈ last, isBlank c) {vs : List Value}
    (hne : vs ≠ []) (hread : ∀ v ∈ vs, ReadsAs depth (write v) v) {fuel : Nat} {cs : List Char}
    (rest : List Char)
    (hcs : skipBlanks cs = skipBlanks (joined (',' :: gap) (vs.map write) ++ (last ++ ']' :: rest)))
    (hfuel : (joined (',' :: gap) (vs.map write)).length < fuel) :
    elements fuel depth cs = .ok (vs, rest) := by
  induction vs generalizing fuel cs with
  | nil => exact absurd rfl hne
  | cons v vs ih =>
    obtain ⟨fuel, rfl⟩ := Nat.exists_eq_add_one_of_ne_zero (Nat.ne_zero_of_lt hfuel)
    have hv := hread v List.mem_cons_self
    have hothers := fun u hu => hread u (List.mem_cons_of_mem v hu)
    -- An element is the last one or stands before a comma, which is less text for the fuel left.
    cases vs with
    | nil =>
      refine elements_last (hv fuel cs _ hcs (Nat.le_of_lt_succ hfuel)) ?_
      rw [skipBlanks_append hlast, skipBlanks_cons (by decide)]
    | cons w vs =>
      simp only [List.map_cons, joined_cons_cons, List.append_assoc, List.cons_append,
        List.length_append, List.length_cons] at hcs hfuel ih
      refine elements_cons (hv fuel cs _ hcs (by omega)) (skipBlanks_cons (by decide) _) ?_
      exact ih (by simp) hothers (skipBlanks_append hgap _) (by omega)

/-- A list is read, whatever blanks stand between its brackets and its elements. -/
theorem readsAs_array (hfirst : ∀ c ∈ first, isBlank c) (hgap : ∀ c ∈ gap, isBlank c)
    (hlast : ∀ c ∈ last, isBlank c) {vs : List Value} (hread : ∀ v ∈ vs, ReadsAs depth (write v) v) :
    ReadsAs (depth + 1) ('[' :: first ++ joined (',' :: gap) (vs.map write) ++ last ++ [']']) (.array vs) := by
  intro fuel cs rest hcs hfuel
  simp only [List.length_append, List.length_cons] at hfuel
  obtain ⟨fuel, rfl⟩ := Nat.exists_eq_add_one_of_ne_zero (n := fuel) (by omega)
  simp only [List.append_assoc, List.cons_append, List.nil_append] at hcs
  rw [skipBlanks_cons (by decide)] at hcs
  cases vs with
  | nil =>
    refine value_array_nil hcs ?_
    rw [skipBlanks_append hfirst, List.map_nil, joined, List.nil_append, skipBlanks_append hlast,
      skipBlanks_cons (by decide)]
  | cons v vs =>
    refine value_array hcs ?_ (elements_joined hgap hlast (by simp) hread rest ?_ (by omega))
    · intro t
      rw [skipBlanks_append hfirst, List.map_cons, joined_cons, List.append_assoc]
      exact (hread v List.mem_cons_self).front _ t
    · rw [skipBlanks_append hfirst, skipBlanks_idem]

/-- A member as it is written, with blanks behind the colon. -/
def memberText (space : List Char) (write : Value → List Char) (m : String × Value) : List Char :=
  quote m.1 ++ ':' :: (space ++ write m.2)

/-- Members with separators between them are read up to the closing brace. -/
theorem members_joined (hspace : ∀ c ∈ space, isBlank c) (hgap : ∀ c ∈ gap, isBlank c)
    (hlast : ∀ c ∈ last, isBlank c) {ms : List (String × Value)} (hne : ms ≠ [])
    (hread : ∀ m ∈ ms, ReadsAs depth (write m.2) m.2) {fuel : Nat} {cs : List Char} (rest : List Char)
    (hcs : skipBlanks cs =
      skipBlanks (joined (',' :: gap) (ms.map (memberText space write)) ++ (last ++ '\x7d' :: rest)))
    (hfuel : (joined (',' :: gap) (ms.map (memberText space write))).length < fuel) :
    members fuel depth cs = .ok (ms, rest) := by
  induction ms generalizing fuel cs with
  | nil => exact absurd rfl hne
  | cons m ms ih =>
    obtain ⟨k, v⟩ := m
    obtain ⟨fuel, rfl⟩ := Nat.exists_eq_add_one_of_ne_zero (Nat.ne_zero_of_lt hfuel)
    have hv : ReadsAs depth (write v) v := hread (k, v) List.mem_cons_self
    have hothers := fun n hn => hread n (List.mem_cons_of_mem (k, v) hn)
    cases ms with
    | nil =>
      simp only [List.map_cons, List.map_nil, joined, memberText, List.append_assoc, List.cons_append,
        skipBlanks_quote, List.length_append, List.length_cons] at hcs hfuel
      refine members_last hcs (stringBody_quote k _) (hv fuel _ _ (skipBlanks_append hspace _) (by omega)) ?_
      rw [skipBlanks_append hlast, skipBlanks_cons (by decide)]
    | cons n ms =>
      simp only [List.map_cons, joined_cons_cons] at hcs hfuel ih
      rw [memberText] at hcs hfuel
      simp only [List.append_assoc, List.cons_append, skipBlanks_quote, List.length_append,
        List.length_cons] at hcs hfuel
      refine members_cons hcs (stringBody_quote k _) (hv fuel _ _ (skipBlanks_append hspace _) (by omega))
        (skipBlanks_cons (by decide) _) ?_
      exact ih (by simp) hothers (skipBlanks_append hgap _) (by omega)

/-- An object is read, whatever blanks stand around its members. -/
theorem readsAs_object (hspace : ∀ c ∈ space, isBlank c) (hfirst : ∀ c ∈ first, isBlank c)
    (hgap : ∀ c ∈ gap, isBlank c) (hlast : ∀ c ∈ last, isBlank c) {ms : List (String × Value)}
    (hread : ∀ m ∈ ms, ReadsAs depth (write m.2) m.2) :
    ReadsAs (depth + 1)
      ('\x7b' :: first ++ joined (',' :: gap) (ms.map (memberText space write)) ++ last ++ ['\x7d'])
      (.object ms) := by
  intro fuel cs rest hcs hfuel
  simp only [List.length_append, List.length_cons] at hfuel
  obtain ⟨fuel, rfl⟩ := Nat.exists_eq_add_one_of_ne_zero (n := fuel) (by omega)
  simp only [List.append_assoc, List.cons_append, List.nil_append] at hcs
  rw [skipBlanks_cons (by decide)] at hcs
  cases ms with
  | nil =>
    refine value_object_nil hcs ?_
    rw [skipBlanks_append hfirst, List.map_nil, joined, List.nil_append, skipBlanks_append hlast,
      skipBlanks_cons (by decide)]
  | cons m ms =>
    refine value_object hcs ?_ (members_joined hspace hgap hlast (by simp) hread rest ?_ (by omega))
    · intro t
      rw [skipBlanks_append hfirst, List.map_cons, joined_cons, memberText, List.append_assoc,
        List.append_assoc, skipBlanks_quote]
      simp
    · rw [skipBlanks_append hfirst, skipBlanks_idem]

end Parts

/-! ### Written values -/

/-- Values whose lists and objects are nested at most so deep. A number is none of them, for a
number is written as it is spelled, and the spelling may be anything. -/
inductive Value.Fits : Nat → Value → Prop where
  | null {depth : Nat} : Fits depth .null
  | bool {depth : Nat} (b : Bool) : Fits depth (.bool b)
  | string {depth : Nat} (s : String) : Fits depth (.string s)
  | array {depth : Nat} {vs : List Value} (h : ∀ v ∈ vs, Fits depth v) : Fits (depth + 1) (.array vs)
  | object {depth : Nat} {ms : List (String × Value)} (h : ∀ m ∈ ms, Fits depth m.2) :
    Fits (depth + 1) (.object ms)

theorem Value.fits_strings? (given : Option (List String)) {depth : Nat} :
    (Value.strings? given).Fits (depth + 1) := by
  cases given with
  | none => exact .null
  | some xs =>
    refine .array fun v hv => ?_
    obtain ⟨x, -, rfl⟩ := List.mem_map.1 hv
    exact .string x

theorem compactAll_eq (vs : List Value) : compactAll vs = vs.map Value.compact := by
  induction vs with
  | nil => rfl
  | cons v vs ih => rw [compactAll, ih, List.map_cons]

theorem compactMembers_eq (ms : List (String × Value)) :
    compactMembers ms = ms.map (memberText [] Value.compact) := by
  induction ms with
  | nil => rfl
  | cons m ms ih => rw [compactMembers, ih, List.map_cons]; rfl

theorem indentedAll_eq (level : Nat) (vs : List Value) :
    indentedAll level vs = vs.map (Value.indented level) := by
  induction vs with
  | nil => rfl
  | cons v vs ih => rw [indentedAll, ih, List.map_cons]

theorem indentedMembers_eq (level : Nat) (ms : List (String × Value)) :
    indentedMembers level ms = ms.map (memberText [' '] (Value.indented level)) := by
  induction ms with
  | nil => rfl
  | cons m ms ih => rw [indentedMembers, ih, List.map_cons]; rfl

/-- A block is its parts between brackets, with layout only where there are parts. -/
theorem exists_block (opening closing : Char) (level : Nat) (parts : List (List Char)) :
    ∃ first gap last : List Char, (∀ c ∈ first, isBlank c) ∧ (∀ c ∈ gap, isBlank c) ∧
      (∀ c ∈ last, isBlank c) ∧
      block opening closing level parts = opening :: first ++ joined (',' :: gap) parts ++ last ++ [closing] := by
  cases parts with
  | nil => exact ⟨[], [], [], isBlank_nil, isBlank_nil, isBlank_nil, rfl⟩
  | cons part parts =>
    exact ⟨newline (level + 1), newline (level + 1), newline level, isBlank_newline _, isBlank_newline _,
      isBlank_newline _, rfl⟩

namespace Value.Fits
variable {depth : Nat} {v : Value}

theorem readsAs_compact (h : v.Fits depth) : ReadsAs depth v.compact v := by
  induction h with
  | null => exact readsAs_null _
  | bool b => exact readsAs_bool _ b
  | string s => exact readsAs_string _ s
  | array _ ih =>
    have hread := readsAs_array isBlank_nil isBlank_nil isBlank_nil ih
    rw [compact, compactAll_eq]
    simpa using hread
  | object _ ih =>
    have hread := readsAs_object isBlank_nil isBlank_nil isBlank_nil isBlank_nil ih
    rw [compact, compactMembers_eq]
    simpa using hread

theorem readsAs_indented (h : v.Fits depth) (level : Nat) : ReadsAs depth (v.indented level) v := by
  induction h generalizing level with
  | null => exact readsAs_null _
  | bool b => exact readsAs_bool _ b
  | string s => exact readsAs_string _ s
  | array _ ih =>
    rw [indented, indentedAll_eq]
    obtain ⟨first, gap, last, hfirst, hgap, hlast, hblock⟩ := exists_block '[' ']' level _
    rw [hblock]
    exact readsAs_array hfirst hgap hlast fun v hv => ih v hv (level + 1)
  | object _ ih =>
    rw [indented, indentedMembers_eq]
    obtain ⟨first, gap, last, hfirst, hgap, hlast, hblock⟩ := exists_block '\x7b' '\x7d' level _
    rw [hblock]
    exact readsAs_object (List.forall_mem_singleton.2 rfl) hfirst hgap hlast fun m hm => ih m hm (level + 1)

end Value.Fits

/-! ### Whole texts -/

theorem ReadsAs.parse {text : List Char} {v : Value} (h : ReadsAs maxDepth text v) :
    parse (String.ofList text) = .ok v := by
  have hread := h (2 * text.length + 2) text [] (by rw [List.append_nil]) (by omega)
  rw [Json.parse, String.toList_ofList]
  simp only [hread]
  rfl

/-- **What is written on one line is read back.** -/
theorem parse_toLine {v : Value} (h : v.Fits maxDepth) : parse v.toLine = .ok v :=
  h.readsAs_compact.parse

/-- The values of a text, one behind the other up to its end; `fuel` bounds their number. -/
def sequence : Nat → List Char → Except Fault (List Value)
  | 0, cs => .error (stuck .value cs)
  | fuel + 1, cs =>
    match skipBlanks cs with
    | [] => .ok []
    | c :: rest =>
      match value (2 * cs.length + 2) maxDepth (c :: rest) with
      | .error e => .error e
      | .ok (v, rest) =>
        match sequence fuel rest with
        | .error e => .error e
        | .ok vs => .ok (v :: vs)

/-- Reads a text that holds any number of values, with blanks around them. -/
def parseAll (text : String) : Except Fault (List Value) :=
  sequence (text.toList.length + 1) text.toList

section Sequence
variable {write : Value → List Char} {gap : List Char}

theorem sequence_written (hgap : ∀ c ∈ gap, isBlank c) {vs : List Value}
    (hread : ∀ v ∈ vs, ReadsAs maxDepth (write v) v) {fuel : Nat} (hfuel : vs.length < fuel)
    (before : List Char) (hbefore : ∀ c ∈ before, isBlank c) :
    sequence fuel (before ++ vs.flatMap fun v => write v ++ gap) = .ok vs := by
  induction vs generalizing fuel before with
  | nil =>
    obtain ⟨fuel, rfl⟩ := Nat.exists_eq_add_one_of_ne_zero (Nat.ne_zero_of_lt hfuel)
    rw [sequence, skipBlanks_append hbefore]
    rfl
  | cons v vs ih =>
    obtain ⟨fuel, rfl⟩ := Nat.exists_eq_add_one_of_ne_zero (Nat.ne_zero_of_lt hfuel)
    have hothers := ih (fun u hu => hread u (List.mem_cons_of_mem v hu)) (Nat.lt_of_succ_lt_succ hfuel) gap hgap
    rw [List.flatMap_cons, List.append_assoc]
    generalize hcs : before ++ (write v ++ (gap ++ vs.flatMap fun v => write v ++ gap)) = cs
    have hfront : skipBlanks (skipBlanks cs) = skipBlanks (write v ++ (gap ++ vs.flatMap fun v => write v ++ gap)) := by
      rw [skipBlanks_idem, ← hcs, skipBlanks_append hbefore]
    have hlength : (write v).length ≤ 2 * cs.length + 2 := by
      rw [← hcs, List.length_append, List.length_append]
      omega
    have hvalue := hread v List.mem_cons_self _ _ _ hfront hlength
    rw [sequence]
    cases hskip : skipBlanks cs with
    | nil =>
      rw [hskip, value_nil] at hvalue
      cases hvalue
    | cons c rest =>
      rw [hskip] at hvalue
      simp only [hvalue, hothers]

/-- **Values written one behind the other are read back in turn.** -/
theorem parseAll_written (hgap : ∀ c ∈ gap, isBlank c) {vs : List Value}
    (hread : ∀ v ∈ vs, ReadsAs maxDepth (write v) v) :
    parseAll (String.ofList (vs.flatMap fun v => write v ++ gap)) = .ok vs := by
  have hlength : vs.length ≤ (vs.flatMap fun v => write v ++ gap).length := by
    have hone := List.length_le_sum_of_one_le (vs.map fun v => (write v ++ gap).length) fun n hn => by
      obtain ⟨v, hv, rfl⟩ := List.mem_map.1 hn
      have hpos := (hread v hv).length_pos
      rw [List.length_append]
      omega
    rwa [List.length_map, ← List.length_flatMap] at hone
  rw [parseAll, String.toList_ofList]
  exact sequence_written hgap hread (Nat.lt_succ_of_le hlength) [] isBlank_nil

end Sequence

end ClassAtlas.Json
