/-!
Matching blocks of two line sequences. The longest common block is taken first, the
earliest one of several in the first sequence and then in the second, and the parts
before and after it are matched in the same way. When the second sequence has 200
lines or more, a line that occurs too often in it starts no block, but still extends one.
-/
namespace ClassAtlas.Diff

/-- `size` lines from `a` in the first sequence are those from `b` in the second. -/
structure Block where
  a : Nat
  b : Nat
  size : Nat
deriving Repr, DecidableEq

/-- The part of two sequences still to be matched. -/
structure Window where
  aLo : Nat
  aHi : Nat
  bLo : Nat
  bHi : Nat
deriving Repr, DecidableEq

/-- Two sequences of lines. `seeds` holds, for each line of the first, the places in
the second where a block may go through. -/
structure Sequences where
  a : Array String
  b : Array String
  seeds : Array (List Nat)

/-- The number of lines from which on frequent lines are left out. -/
def crowd : Nat := 200

def isPopular (b : List String) (line : String) : Bool :=
  crowd ≤ b.length && b.length / 100 + 1 < b.count line

/-- The places of a line, counted from `start`. -/
def placesFrom (line : String) : (start : Nat) → List String → List Nat
  | _, [] => []
  | start, l :: rest =>
    if l = line then start :: placesFrom line (start + 1) rest else placesFrom line (start + 1) rest

def Sequences.of (a b : List String) : Sequences where
  a := a.toArray
  b := b.toArray
  seeds := (a.map fun line => if isPopular b line then [] else placesFrom line 0 b).toArray

/-! ### The longest block -/

/-- For each place in the second sequence, the length of the block that ends there. -/
abbrev Row := List (Nat × Nat)

def Row.at (r : Row) (j : Nat) : Nat := (r.lookup j).getD 0

/-- The row of a line from that of the line before. -/
def nextRow (before : Row) (js : List Nat) : Row :=
  js.map fun j => (j, (if j = 0 then 0 else before.at (j - 1)) + 1)

/-- The longer of the best block so far and those that end at line `i`. -/
def better (i : Nat) (best : Block) (row : Row) : Block :=
  row.foldl (fun best (j, k) => if best.size < k then ⟨i + 1 - k, j + 1 - k, k⟩ else best) best

/-- The best block among those that end at the next `n` lines from `i` on. -/
def seedBlock (s : Sequences) (w : Window) : (n i : Nat) → Row → Block → Block
  | 0, _, _, best => best
  | n + 1, i, before, best =>
    let js := (s.seeds.getD i []).filter fun j => w.bLo ≤ j && j < w.bHi
    let row := nextRow before js
    seedBlock s w n (i + 1) row (better i best row)

def sameLine (s : Sequences) (i j : Nat) : Bool :=
  match s.a[i]?, s.b[j]? with
  | some x, some y => x == y
  | _, _ => false

/-- Extends a block at its start while lines agree; `n` bounds the steps. -/
def extendBack (s : Sequences) (w : Window) : Nat → Block → Block
  | 0, m => m
  | n + 1, m =>
    if w.aLo < m.a && w.bLo < m.b && sameLine s (m.a - 1) (m.b - 1) then
      extendBack s w n ⟨m.a - 1, m.b - 1, m.size + 1⟩
    else m

/-- Extends a block at its end while lines agree. -/
def extendOn (s : Sequences) (w : Window) : Nat → Block → Block
  | 0, m => m
  | n + 1, m =>
    if m.a + m.size < w.aHi && m.b + m.size < w.bHi && sameLine s (m.a + m.size) (m.b + m.size) then
      extendOn s w n ⟨m.a, m.b, m.size + 1⟩
    else m

def longestBlock (s : Sequences) (w : Window) : Block :=
  let length := w.aHi - w.aLo
  let m := seedBlock s w length w.aLo [] ⟨w.aLo, w.bLo, 0⟩
  extendOn s w length (extendBack s w length m)

/-! ### All blocks -/

/-- The blocks of a window in order; `fuel` bounds how often it is divided. -/
def blocksIn (s : Sequences) : (fuel : Nat) → Window → List Block
  | 0, _ => []
  | fuel + 1, w =>
    let m := longestBlock s w
    if m.size = 0 then []
    else
      let before := if w.aLo < m.a && w.bLo < m.b then
        blocksIn s fuel ⟨w.aLo, m.a, w.bLo, m.b⟩ else []
      let after := if m.a + m.size < w.aHi && m.b + m.size < w.bHi then
        blocksIn s fuel ⟨m.a + m.size, w.aHi, m.b + m.size, w.bHi⟩ else []
      before ++ m :: after

/-- Joins blocks that touch in both sequences. -/
def joinBlocks : List Block → List Block
  | [] => []
  | [m] => [m]
  | m :: n :: rest =>
    if m.a + m.size = n.a ∧ m.b + m.size = n.b then joinBlocks (⟨m.a, m.b, m.size + n.size⟩ :: rest)
    else m :: joinBlocks (n :: rest)
termination_by ms => ms.length

def blocks (a b : List String) : List Block :=
  let s := Sequences.of a b
  joinBlocks (blocksIn s (a.length + 1) ⟨0, a.length, 0, b.length⟩)

end ClassAtlas.Diff
