/-!
Prefix codes given by the lengths of their words. Shorter words come first, words of
one length in the order of their symbols, each the successor of the one before. Words
are read from a number, lowest bit first.
-/
namespace ClassAtlas.Archive

/-- The words of a code as paths: a zero goes left, a one goes right. -/
inductive CodeTree where
  | bare
  | leaf (symbol : Nat)
  | fork (zero one : CodeTree)
deriving Repr, DecidableEq

namespace CodeTree

/-- Adds a word of the given length, whose first bit is the highest. -/
def insert (symbol : Nat) : (length word : Nat) → CodeTree → CodeTree
  | 0, _, _ => leaf symbol
  | length + 1, word, t =>
    let (zero, one) := match t with
      | fork zero one => (zero, one)
      | _ => (bare, bare)
    if word.testBit length then fork zero (insert symbol length word one)
    else fork (insert symbol length word zero) one

/-- The symbol whose word the bits start with, and the length of the word. -/
def find? : CodeTree → (bits : Nat) → Option (Nat × Nat)
  | bare, _ => none
  | leaf symbol, _ => some (symbol, 0)
  | fork zero one, bits =>
    let below := if bits % 2 = 0 then zero.find? (bits / 2) else one.find? (bits / 2)
    below.map fun r => (r.1, r.2 + 1)

end CodeTree

/-- A code and the length of its shortest word. -/
structure PrefixCode where
  tree : CodeTree
  least : Nat
deriving Repr, DecidableEq

namespace PrefixCode

/-- A length for each symbol, zero for a symbol without a word. -/
abbrev Lengths := List Nat

/-- The number of words of a length. -/
def countOf (lengths : Lengths) (length : Nat) : Nat := lengths.count length

/-- The first word of each length from `length` on, for `steps` lengths, and the word
after the last one. -/
def firstWords (lengths : Lengths) : (steps length word : Nat) → List (Nat × Nat) × Nat
  | 0, _, word => ([], word)
  | steps + 1, length, word =>
    let first := word * 2
    let (rest, last) := firstWords lengths steps (length + 1) (first + countOf lengths length)
    ((length, first) :: rest, last)

/-- The symbols with words of one length. -/
def symbolsOf (lengths : Lengths) (length : Nat) : List Nat :=
  (lengths.zipIdx.filter (·.1 == length)).map (·.2)

/-- The tree of all words, given the first word of each length. -/
def treeOf (lengths : Lengths) (firsts : List (Nat × Nat)) : CodeTree :=
  firsts.foldl (fun t (length, first) =>
    (symbolsOf lengths length).zipIdx.foldl (fun t (symbol, i) => t.insert symbol length (first + i)) t) .bare

/-- The code with the given lengths: either it is empty, or it uses every sequence of
bits up, or it has a single word of one bit. -/
def ofLengths? (lengths : Lengths) : Option PrefixCode :=
  let used := lengths.filter (· ≠ 0)
  match used.min?, used.max? with
  | some least, some most =>
    let (firsts, last) := firstWords lengths (most + 1 - least) least 0
    if last = Nat.pow 2 most ∨ (last = 1 ∧ most = 1) then some ⟨treeOf lengths firsts, least⟩ else none
  | _, _ => some ⟨.bare, 0⟩

end PrefixCode
end ClassAtlas.Archive
