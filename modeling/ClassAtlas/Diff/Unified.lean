import ClassAtlas.Diff.Blocks

/-!
Unified diffs. The blocks that two texts share divide them into edits; edits with
few common lines between them form a hunk, which also shows some common lines
around them. Equal texts have the empty diff.

Places are counted in 64 bits with a sign. A great number of common lines may be
asked for, and then a place so many lines on may be a negative one: the ranges are
those that such numbers give, and there is no diff if its lines would have to be
taken from a text up to such a place.
-/
namespace ClassAtlas.Diff

/-- What 64 bits with a sign hold of a whole number. -/
def wrap (x : Int) : Int := x.bmod 18446744073709551616

/-! ### Edits -/

/-- What becomes of a range of lines. -/
inductive Change where
  | keep | replace | delete | insert
deriving Repr, DecidableEq

/-- The lines from `aLo` to `aHi` of the first text against those from `bLo` to `bHi` of the second. -/
structure Edit where
  change : Change
  aLo : Int
  aHi : Int
  bLo : Int
  bHi : Int
deriving Repr, DecidableEq

/-- The edit that leads from a pair of places to a later one, if they differ. -/
def gap (i j i' j' : Nat) : List Edit :=
  if i < i' ∧ j < j' then [⟨.replace, i, i', j, j'⟩]
  else if i < i' then [⟨.delete, i, i', j, j'⟩]
  else if j < j' then [⟨.insert, i, i', j, j'⟩]
  else []

/-- The edits from the places `i` and `j` on, through the blocks, to the ends. -/
def editsFrom (aEnd bEnd : Nat) : (i j : Nat) → List Block → List Edit
  | i, j, [] => gap i j aEnd bEnd
  | i, j, m :: rest =>
    gap i j m.a m.b ++ ⟨.keep, m.a, m.a + m.size, m.b, m.b + m.size⟩ ::
      editsFrom aEnd bEnd (m.a + m.size) (m.b + m.size) rest

def edits (a b : List String) : List Edit := editsFrom a.length b.length 0 0 (blocks a b)

/-! ### Hunks -/

abbrev Hunk := List Edit

namespace Edit

/-- The last `n` lines of a common range. -/
def last (n : Int) (e : Edit) : Edit :=
  { e with aLo := max e.aLo (wrap (e.aHi - n)), bLo := max e.bLo (wrap (e.bHi - n)) }

/-- The first `n` lines of a common range. -/
def first (n : Int) (e : Edit) : Edit :=
  { e with aHi := min e.aHi (wrap (e.aLo + n)), bHi := min e.bHi (wrap (e.bLo + n)) }

end Edit

/-- Cuts a common range at the start down to its last `n` lines. -/
def trimStart (n : Int) : List Edit → List Edit
  | e :: rest => (if e.change = .keep then e.last n else e) :: rest
  | [] => []

/-- Cuts a common range at the end down to its first `n` lines. -/
def trimEnd (n : Int) : List Edit → List Edit
  | [] => []
  | [e] => [if e.change = .keep then e.first n else e]
  | e :: rest => e :: trimEnd n rest

/-- Divides edits at common ranges of more than `2 n` lines. `hunk` holds the edits of
the current hunk, the latest first. -/
def divide (n : Int) (hunk : List Edit) : List Edit → List Hunk
  | [] =>
    match hunk with
    | [] => []
    | [e] => if e.change = .keep then [] else [[e]]
    | es => [es.reverse]
  | e :: rest =>
    if e.change = .keep ∧ wrap (n + n) < wrap (e.aHi - e.aLo) then
      ((e.first n) :: hunk).reverse :: divide n [e.last n] rest
    else divide n (e :: hunk) rest

def hunks (n : Int) (es : List Edit) : List Hunk := divide n [] (trimEnd n (trimStart n es))

/-! ### Text -/

/-- The lines of a text, each with its line feed. -/
def linesOf (s : String) : List String :=
  let rec go : List Char → List Char → List String
    | line, [] => if line.isEmpty then [] else [String.ofList line.reverse]
    | line, c :: rest =>
      if c = '\n' then String.ofList (c :: line).reverse :: go [] rest else go (c :: line) rest
  go [] s.toList

/-- A range of lines by its first line, counted from one, and its length. -/
def rangeText (lo hi : Int) : String :=
  let length := wrap (hi - lo)
  if length = 1 then toString (lo + 1)
  else if length = 0 then toString lo ++ ",0"
  else toString (lo + 1) ++ "," ++ toString length

/-- The lines between two places, if they are places of the text, one not before the other. -/
def slice? (xs : List String) (lo hi : Int) : Option (List String) :=
  if 0 ≤ lo ∧ lo ≤ hi ∧ hi ≤ xs.length then some ((xs.drop lo.toNat).take (hi - lo).toNat) else none

/-- The lines between two places, each behind a mark. -/
def marked (mark : String) (xs : List String) (lo hi : Int) : Option (List String) :=
  (slice? xs lo hi).map (·.map (mark ++ ·))

/-- The lines of an edit, each behind its mark. -/
def Edit.write (a b : List String) (e : Edit) : Option (List String) :=
  match e.change with
  | .keep => marked " " a e.aLo e.aHi
  | .delete => marked "-" a e.aLo e.aHi
  | .insert => marked "+" b e.bLo e.bHi
  | .replace => do return (← marked "-" a e.aLo e.aHi) ++ (← marked "+" b e.bLo e.bHi)

def Hunk.header (h : Hunk) : String :=
  match h.head?, h.getLast? with
  | some first, some last =>
    "@@ -" ++ rangeText first.aLo last.aHi ++ " +" ++ rangeText first.bLo last.bHi ++ " @@\n"
  | _, _ => ""

def Hunk.write (a b : List String) (h : Hunk) : Option (List String) := do
  return Hunk.header h :: (← h.mapM (Edit.write a b)).flatten

/-- The lines that name the two texts, unless both are without a name. -/
def titles (aName bName : String) : List String :=
  if aName = "" ∧ bName = "" then [] else ["--- " ++ aName ++ "\n", "+++ " ++ bName ++ "\n"]

/-- The number of common lines shown when none is asked for. -/
def defaultContext : Int := 3

/-- The diff of two texts. Without a positive number of common lines, three are shown. -/
def unified (aName bName a b : String) (context : Int) : Option String :=
  if a = b then some ""
  else
    let n := if context ≤ 0 then defaultContext else context
    let as := linesOf a
    let bs := linesOf b
    match hunks n (edits as bs) with
    | [] => some ""
    | hs => do return String.join (titles aName bName ++ (← hs.mapM (Hunk.write as bs)).flatten)

end ClassAtlas.Diff
