import ClassAtlas.Proofs.Diff.Lines

/-! Patches: unified diffs as they are read and applied.

A patch is a list of hunks. A hunk has a range of lines in each of two texts and lines with marks: those
it keeps, those it removes and those it adds. `read` takes a patch from its text, and `apply` turns the
lines of the one text into those of the other. Nothing is searched for: a hunk applies at its ranges only,
which must have as many lines as it shows, and the lines found there must be those it keeps and removes.

A patch applies to the lines that it fits (`Fits.apply`), and what fits still does with the two texts
exchanged (`Fits.swap`). -/
namespace ClassAtlas.Diff.Patch

inductive Mark where
  | keep | remove | add
deriving Repr, DecidableEq

/-- A line behind its mark. -/
structure Line where
  mark : Mark
  text : String
deriving Repr, DecidableEq

namespace Line

/-- What a line shows of the first text. -/
def old? (l : Line) : Option String := if l.mark = .add then none else some l.text

/-- What a line shows of the second text. -/
def new? (l : Line) : Option String := if l.mark = .remove then none else some l.text

/-- The line when the two texts are exchanged. -/
def swap (l : Line) : Line :=
  match l.mark with
  | .keep => l
  | .remove => { l with mark := .add }
  | .add => { l with mark := .remove }

theorem old?_swap (l : Line) : l.swap.old? = l.new? := by
  obtain ⟨mark, text⟩ := l
  cases mark <;> rfl

theorem new?_swap (l : Line) : l.swap.new? = l.old? := by
  obtain ⟨mark, text⟩ := l
  cases mark <;> rfl

end Line

/-- A range of lines by its first line, counted from one. An empty range has the line before it. -/
structure Range where
  start : Nat
  count : Nat
deriving Repr, DecidableEq

/-- The number of lines before a range. -/
def Range.before (r : Range) : Nat := if r.count = 0 then r.start else r.start - 1

/-- The range of the lines from `lo` to `hi`. -/
def Range.of (lo hi : Nat) : Range := ⟨if hi - lo = 0 then lo else lo + 1, hi - lo⟩

@[simp] theorem Range.before_of (lo hi : Nat) : (Range.of lo hi).before = lo := by
  unfold Range.before Range.of
  dsimp only
  split
  · rfl
  · rfl

theorem Range.count_of (lo n : Nat) : (Range.of lo (lo + n)).count = n := Nat.add_sub_cancel_left lo n

structure Hunk where
  old : Range
  new : Range
  lines : List Line
deriving Repr, DecidableEq

namespace Hunk

/-- The lines that a hunk shows of the first text. -/
def oldLines (h : Hunk) : List String := h.lines.filterMap Line.old?

/-- The lines that a hunk shows of the second text. -/
def newLines (h : Hunk) : List String := h.lines.filterMap Line.new?

/-- The ranges have as many lines as the hunk shows. -/
def Counted (h : Hunk) : Prop := h.old.count = h.oldLines.length ∧ h.new.count = h.newLines.length

instance (h : Hunk) : Decidable h.Counted := inferInstanceAs (Decidable (_ ∧ _))

/-- The hunk that leads back. -/
def swap (h : Hunk) : Hunk := ⟨h.new, h.old, h.lines.map Line.swap⟩

theorem oldLines_swap (h : Hunk) : h.swap.oldLines = h.newLines := by
  unfold oldLines newLines swap
  rw [List.filterMap_map]
  exact congrArg (List.filterMap · h.lines) (funext Line.old?_swap)

theorem newLines_swap (h : Hunk) : h.swap.newLines = h.oldLines := by
  unfold oldLines newLines swap
  rw [List.filterMap_map]
  exact congrArg (List.filterMap · h.lines) (funext Line.new?_swap)

end Hunk

/-! ### Applying -/

/-- Applies hunks to the lines of the first text from the place `i` on. The second text stands at the place `j`. -/
def applyFrom : (i j : Nat) → List Hunk → List String → Option (List String)
  | _, _, [], lines => some lines
  | i, j, h :: rest, lines =>
    let gap := h.old.before - i
    if h.Counted ∧ i ≤ h.old.before ∧ h.new.before = j + gap ∧ gap ≤ lines.length ∧ h.oldLines <+: lines.drop gap then
      (applyFrom (h.old.before + h.old.count) (h.new.before + h.new.count) rest
        (lines.drop (gap + h.old.count))).map (lines.take gap ++ h.newLines ++ ·)
    else none

def apply (hunks : List Hunk) (lines : List String) : Option (List String) := applyFrom 0 0 hunks lines

/-- The hunks lead from the lines of the first text from the place `i` on to those of the second one from the
place `j` on, and they do so between common lines. -/
inductive Fits : Nat → Nat → List Hunk → List String → List String → Prop
  | nil (i j : Nat) (lines : List String) : Fits i j [] lines lines
  | cons {i j i' j' : Nat} {h : Hunk} {rest : List Hunk} {olds news : List String} (gap : List String)
      (hi : i + gap.length + h.oldLines.length = i') (hj : j + gap.length + h.newLines.length = j')
      (hold : h.old = .of (i + gap.length) i') (hnew : h.new = .of (j + gap.length) j')
      (hrest : Fits i' j' rest olds news) :
      Fits i j (h :: rest) (gap ++ (h.oldLines ++ olds)) (gap ++ (h.newLines ++ news))

variable {i j : Nat} {hunks : List Hunk} {olds news : List String}

theorem Fits.swap (h : Fits i j hunks olds news) : Fits j i (hunks.map Hunk.swap) news olds := by
  induction h with
  | nil i j lines => exact .nil j i lines
  | @cons _ _ _ _ h _ _ _ gap hi hj hold hnew _ ih =>
    rw [List.map_cons, ← h.oldLines_swap, ← h.newLines_swap]
    exact .cons gap (by rwa [h.oldLines_swap]) (by rwa [h.newLines_swap]) hnew hold ih

theorem Fits.counted (h : Fits i j hunks olds news) : ∀ hunk ∈ hunks, hunk.Counted := by
  induction h with
  | nil => exact fun _ hmem => nomatch hmem
  | cons gap hi hj hold hnew _ ih =>
    refine List.forall_mem_cons.2 ⟨⟨?_, ?_⟩, ih⟩
    · rw [hold, ← hi, Range.count_of]
    · rw [hnew, ← hj, Range.count_of]

/-- **Hunks apply to the lines that they fit.** -/
theorem Fits.applyFrom (h : Fits i j hunks olds news) : applyFrom i j hunks olds = some news := by
  induction h with
  | nil => rfl
  | @cons i j i' j' h rest olds news gap hi hj hold hnew hrest ih =>
    have hcounted : h.Counted := (Fits.cons gap hi hj hold hnew hrest).counted h List.mem_cons_self
    have hold' : h.old.before = i + gap.length := by rw [hold, Range.before_of]
    have hnew' : h.new.before = j + gap.length := by rw [hnew, Range.before_of]
    have hgap : h.old.before - i = gap.length := by omega
    unfold Patch.applyFrom
    dsimp only
    rw [hgap, if_pos ⟨hcounted, by omega, hnew', by simp, by simp⟩, hold', hnew', hcounted.1, hcounted.2, hi, hj]
    simp [ih]

/-- The ranges of the hunks match their lines, the hunks turn the first text into the second, and with the
two texts exchanged the second into the first. -/
structure Converts (hunks : List Hunk) (olds news : List String) : Prop where
  counted : ∀ h ∈ hunks, h.Counted
  applies : apply hunks olds = some news
  reverts : apply (hunks.map Hunk.swap) news = some olds

theorem Fits.converts (h : Fits 0 0 hunks olds news) : Converts hunks olds news :=
  ⟨h.counted, h.applyFrom, h.swap.applyFrom⟩

/-- A hunk that begins before the end of the one before it does not apply. -/
theorem applyFrom_overlap {p q : Hunk} (h : q.old.before < p.old.before + p.old.count) (i j : Nat)
    (rest : List Hunk) (lines : List String) : applyFrom i j (p :: q :: rest) lines = none := by
  have hrest (j : Nat) (lines : List String) : applyFrom (p.old.before + p.old.count) j (q :: rest) lines = none :=
    if_neg fun hq => Nat.not_le_of_lt h hq.2.1
  rw [applyFrom, hrest, Option.map_none, ite_self]

/-! ### Reading -/

/-- Reads a whole number from its decimal digits. -/
def natural? (cs : List Char) : Option Nat :=
  if cs ≠ [] ∧ cs.all Char.isDigit then some (Nat.ofDigitChars 10 cs 0) else none

/-- Reads a range. One line is meant where no length stands. -/
def range? (cs : List Char) : Option Range :=
  match cs.splitOn ',' with
  | [start] => do return ⟨← natural? start, 1⟩
  | [start, count] => do return ⟨← natural? start, ← natural? count⟩
  | _ => none

/-- Reads the line before the lines of a hunk. -/
def header? (line : String) : Option (Range × Range) :=
  match line.toList.splitOn ' ' with
  | [['@', '@'], '-' :: old, '+' :: new, ['@', '@', '\n']] => do return (← range? old, ← range? new)
  | _ => none

def line? (line : String) : Option Line :=
  match line.toList with
  | ' ' :: text => some ⟨.keep, String.ofList text⟩
  | '-' :: text => some ⟨.remove, String.ofList text⟩
  | '+' :: text => some ⟨.add, String.ofList text⟩
  | _ => none

/-- Reads lines that belong to a hunk already begun, and then the hunks that follow. -/
def hunks? : List String → Option (List Line × List Hunk)
  | [] => some ([], [])
  | line :: rest => do
    let (lines, hunks) ← hunks? rest
    match line? line with
    | some l => some (l :: lines, hunks)
    | none =>
      let (old, new) ← header? line
      return ([], ⟨old, new, lines⟩ :: hunks)

/-- Leaves out the lines that name the two texts. -/
def skipTitles : List String → List String
  | old :: new :: rest =>
    if "--- ".toList <+: old.toList ∧ "+++ ".toList <+: new.toList then rest else old :: new :: rest
  | lines => lines

/-- Reads a patch. No line of a hunk may stand before the first one. -/
def read (text : String) : Option (List Hunk) :=
  match hunks? (skipTitles (linesOf text)) with
  | some ([], hunks) => some hunks
  | _ => none

/-! ### Reading back -/

theorem natural?_toString (n : Nat) : natural? (toString n).toList = some n := by
  have hdigits : (toString n).toList = Nat.toDigits 10 n := Nat.toList_repr
  have hall : (Nat.toDigits 10 n).all Char.isDigit = true :=
    List.all_eq_true.2 fun c hc => Nat.isDigit_of_mem_toDigits (by decide) (by decide) hc
  rw [natural?, hdigits, if_pos ⟨Nat.toDigits_ne_nil, hall⟩, Nat.ofDigitChars_ten_toDigits]

theorem isDigit_of_mem_toString {n : Nat} {c : Char} (h : c ∈ (toString n).toList) : c.isDigit = true :=
  Nat.isDigit_of_mem_toDigits (by decide) (by decide) (Nat.toList_repr ▸ h)

/-- The text of a range. One line goes without saying. -/
def Range.write (r : Range) : String :=
  if r.count = 1 then toString r.start else toString r.start ++ "," ++ toString r.count

/-- A range has digits and commas in it. -/
theorem Range.mem_write {r : Range} {c : Char} (h : c ∈ r.write.toList) : c.isDigit = true ∨ c = ',' := by
  unfold Range.write at h
  split at h
  · exact .inl (isDigit_of_mem_toString h)
  · simp only [String.toList_append, List.mem_append] at h
    rcases h with (h | h) | h
    · exact .inl (isDigit_of_mem_toString h)
    · exact .inr (List.mem_singleton.1 h)
    · exact .inl (isDigit_of_mem_toString h)

theorem Range.not_mem_write {c : Char} (h : c.isDigit = false) (hcomma : c ≠ ',') (r : Range) : c ∉ r.write.toList := by
  intro hmem
  rcases Range.mem_write hmem with hdigit | heq
  · rw [h] at hdigit
    cases hdigit
  · exact hcomma heq

theorem range?_write (r : Range) : range? r.write.toList = some r := by
  obtain ⟨start, count⟩ := r
  have hcomma (n : Nat) : ',' ∉ (toString n).toList := fun hmem => absurd (isDigit_of_mem_toString hmem) (by decide)
  unfold Range.write
  split
  · rename_i hone
    have hsplit : (toString start).toList.splitOn ',' = [(toString start).toList] :=
      List.splitOn_eq_singleton (hcomma start)
    obtain rfl : count = 1 := hone
    simp only [range?, hsplit, natural?_toString]
    rfl
  · have hsplit : (toString start ++ "," ++ toString count).toList.splitOn ',' =
        [(toString start).toList, (toString count).toList] := by
      have hparts : ([','].intercalate [(toString start).toList, (toString count).toList]).splitOn ',' = _ :=
        List.splitOn_intercalate ',' (List.forall_mem_cons.2
          ⟨hcomma start, List.forall_mem_singleton.2 (hcomma count)⟩) (List.cons_ne_nil _ _)
      rw [← hparts]
      simp [List.intercalate]
    simp only [range?, hsplit, natural?_toString]
    rfl

/-- The line before the lines of a hunk. -/
def headerText (old new : Range) : String := "@@ -" ++ old.write ++ " +" ++ new.write ++ " @@\n"

theorem header?_headerText (old new : Range) : header? (headerText old new) = some (old, new) := by
  have hspace (r : Range) : ' ' ∉ r.write.toList := r.not_mem_write (by decide) (by decide)
  have hsplit : (headerText old new).toList.splitOn ' ' =
      [['@', '@'], '-' :: old.write.toList, '+' :: new.write.toList, ['@', '@', '\n']] := by
    have hparts : ([' '].intercalate [['@', '@'], '-' :: old.write.toList, '+' :: new.write.toList,
        ['@', '@', '\n']]).splitOn ' ' = _ := List.splitOn_intercalate ' ' (by simp [hspace]) (List.cons_ne_nil _ _)
    rw [← hparts]
    simp [headerText, List.intercalate]
  simp only [header?, hsplit, range?_write]
  rfl

theorem line?_headerText (old new : Range) : line? (headerText old new) = none := by
  simp [line?, headerText]

theorem isLine_headerText (old new : Range) : IsLine (headerText old new) := by
  have hfeed (r : Range) : '\n' ∉ r.write.toList := r.not_mem_write (by decide) (by decide)
  exact .append (by simp [hfeed]) ⟨" @@".toList, by decide, rfl⟩

def Mark.text : Mark → String
  | .keep => " "
  | .remove => "-"
  | .add => "+"

def Line.write (l : Line) : String := l.mark.text ++ l.text

theorem line?_write (l : Line) : line? l.write = some l := by
  obtain ⟨mark, text⟩ := l
  cases mark <;> simp [line?, Line.write, Mark.text]

theorem hunks?_lines (lines : List Line) {rest : List String} {lines' : List Line} {hunks : List Hunk}
    (h : hunks? rest = some (lines', hunks)) :
    hunks? (lines.map Line.write ++ rest) = some (lines ++ lines', hunks) := by
  induction lines with
  | nil => exact h
  | cons l lines ih =>
    rw [List.map_cons, List.cons_append, hunks?, ih]
    simp only [line?_write, Option.bind_eq_bind, Option.bind_some]
    rfl

theorem hunks?_header (old new : Range) {rest : List String} {lines : List Line} {hunks : List Hunk}
    (h : hunks? rest = some (lines, hunks)) :
    hunks? (headerText old new :: rest) = some ([], ⟨old, new, lines⟩ :: hunks) := by
  rw [hunks?, h]
  simp only [line?_headerText, header?_headerText, Option.bind_eq_bind, Option.bind_some]
  rfl

end ClassAtlas.Diff.Patch
