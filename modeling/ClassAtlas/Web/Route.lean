import ClassAtlas.Text.Digit
import ClassAtlas.Text.Letter
import ClassAtlas.Web.Url

/-!
Routes: patterns for paths, and the search for the pattern that fits a path best. A
segment of a pattern is a literal, a wildcard for one segment or a wildcard for all that
follows. Two patterns stand together only if one of them is more special wherever both
fit, so at each segment a literal is tried before a wildcard for one segment, and that
before a wildcard for the rest.
-/
namespace ClassAtlas.Web

inductive Segment where
  /-- The segment itself; a slash stands for the slash at the end of a path. -/
  | literal (text : Bytes)
  | one (name : Bytes)
  /-- The rest of the path; without a name at a pattern's last slash. -/
  | rest (name : Bytes)
deriving Repr, DecidableEq

abbrev Pattern := List Segment

namespace Pattern

/-- A letter or an underscore, and digits behind it. -/
def isName (name : Bytes) : Bool :=
  match Text.Utf8.decode? name with
  | none => false
  | some s =>
    let isStart (c : Char) : Bool := Text.letters.contains c || c == '_'
    match s.toList with
    | [] => false
    | c :: cs => isStart c && cs.all fun d => isStart d || Text.digits.contains d

/-- Reads a wildcard, given its text and whether it is the last segment. -/
def wildcard? (text : Bytes) (isLast : Bool) : Option Segment := do
  guard (startsWith text (bytesOf "\x7b") && text.getLast?.any (isChar '\x7d'))
  let name := (text.drop 1).dropLast
  if name = bytesOf "$" then
    guard isLast
    return .literal (bytesOf "/")
  let dots := bytesOf "..."
  let takesRest := startsWith name.reverse dots
  let name := if takesRest then name.take (name.length - 3) else name
  guard (isName name && (!takesRest || isLast))
  return if takesRest then .rest name else .one name

def segment? (text : Bytes) (isLast : Bool) : Option Segment :=
  if text.any (isChar '\x7b') then wildcard? text isLast else some (.literal (unescapeOrKeep text))

/-- Reads the segments of a pattern; an empty one at the end stands for its last slash. -/
def segments? : List Bytes → Option Pattern
  | [] => some []
  | [text] => if text.isEmpty then some [.rest []] else (segment? text true).map ([·])
  | text :: others => do
    let first ← segment? text false
    return first :: (← segments? others)

def names (p : Pattern) : List Bytes :=
  p.filterMap fun
    | .literal _ => none
    | .one name | .rest name => if name.isEmpty then none else some name

/-- Reads a pattern. Its path is normal, and no two wildcards share a name. -/
def parse? (text : Bytes) : Option Pattern := do
  guard (startsWith text (bytesOf "/") && text == cleanPath text)
  let p ← segments? (pieces isSlash (text.drop 1))
  guard p.names.Nodup
  return p

def takesRest (p : Pattern) : Bool :=
  match p.getLast? with
  | some (.rest _) => true
  | _ => false

/-! ### Comparison -/

/-- How the paths that two patterns fit lie to each other. -/
inductive Relation where
  | same | wider | narrower | disjoint | crossing
deriving Repr, DecidableEq

namespace Relation

/-- The relation of two sequences of segments, from that of their starts and their ends. -/
def and : Relation → Relation → Relation
  | same, r => r
  | disjoint, _ => disjoint
  | crossing, disjoint => disjoint
  | crossing, _ => crossing
  | wider, same => wider
  | wider, narrower => crossing
  | wider, r => r
  | narrower, same => narrower
  | narrower, wider => crossing
  | narrower, r => r

end Relation

def compareSegments : Segment → Segment → Relation
  | .rest _, .rest _ => .same
  | .rest _, _ => .wider
  | _, .rest _ => .narrower
  | .one _, .one _ => .same
  | .one _, .literal t => if t = bytesOf "/" then .disjoint else .wider
  | .literal t, .one _ => if t = bytesOf "/" then .disjoint else .narrower
  | .literal s, .literal t => if s = t then .same else .disjoint

/-- Compares what is left of two patterns, of which `p` and `q` are the whole. -/
def compareFrom (p q : Pattern) (soFar : Relation) : Pattern → Pattern → Relation
  | [], [] => soFar
  | [], _ :: _ => if p.takesRest then soFar.and .wider else .disjoint
  | _ :: _, [] => if q.takesRest then soFar.and .narrower else .disjoint
  | s :: p', t :: q' =>
    match soFar.and (compareSegments s t) with
    | .disjoint => .disjoint
    | r => compareFrom p q r p' q'

/-- Whether two patterns cannot stand together. -/
def conflicts (p q : Pattern) : Bool :=
  match compareFrom p q .same p q with
  | .same | .crossing => true
  | _ => false

end Pattern

/-! ### Search -/

/-- A segment of a path with its escapes replaced, and the path from it on. -/
structure Step where
  segment : Bytes
  onward : Bytes
deriving Repr, DecidableEq

/-- The steps along a path, of which the segments are given. The slash at the end of a
path is a step of its own. -/
def stepsOf : List Bytes → List Step
  | [] => []
  | [text] => [if text.isEmpty then ⟨bytesOf "/", []⟩ else ⟨unescapeOrKeep text, text⟩]
  | text :: others =>
    ⟨unescapeOrKeep text, text ++ joinSegments others⟩ :: stepsOf others

def steps (path : Bytes) : List Step := stepsOf (pieces isSlash (path.drop 1))

/-- A route under consideration: the segments that are left of its pattern, the whole
pattern, and what it leads to. -/
structure Candidate (ρ : Type) where
  left : Pattern
  pattern : Pattern
  target : ρ

/-- A pattern that fits, what it leads to, and what its wildcard for the rest stands for. -/
structure Match (ρ : Type) where
  pattern : Pattern
  target : ρ
  rest : Bytes

/-- The candidates whose next segment is of some kind, that segment passed. -/
def advance (fits : Segment → Bool) (cs : List (Candidate ρ)) : List (Candidate ρ) :=
  cs.filterMap fun c =>
    match c.left with
    | s :: left => if fits s then some { c with left } else none
    | [] => none

def isRest : Segment → Bool
  | .rest _ => true
  | _ => false

def isOne : Segment → Bool
  | .one _ => true
  | _ => false

/-- The candidate that fits best. -/
def search (cs : List (Candidate ρ)) : List Step → Option (Match ρ)
  | [] => (cs.find? (·.left.isEmpty)).map fun c => ⟨c.pattern, c.target, []⟩
  | s :: more =>
    let literal := search (advance (· == .literal s.segment) cs) more
    let single := if s.segment = bytesOf "/" then none else search (advance isOne cs) more
    let multiple := (advance isRest cs).head?.map fun c =>
      ⟨c.pattern, c.target, unescapeOrKeep s.onward⟩
    literal <|> single <|> multiple

/-- The routes of a server. -/
abbrev Routes (ρ : Type) := List (Pattern × ρ)

namespace Routes

/-- Adds a route, unless its pattern is malformed or conflicts with another. -/
def add? (routes : Routes ρ) (pattern : Bytes) (target : ρ) : Option (Routes ρ) := do
  let p ← Pattern.parse? pattern
  guard (!routes.any fun r => p.conflicts r.1)
  return routes ++ [(p, target)]

def find? (routes : Routes ρ) (path : Bytes) : Option (Match ρ) :=
  search (routes.map fun r => ⟨r.1, r.1, r.2⟩) (steps path)

/-- The match of a path that leaves nothing to a wildcard for the rest. -/
def findExact? (routes : Routes ρ) (path : Bytes) : Option (Match ρ) := do
  let m ← routes.find? path
  guard (!m.pattern.takesRest ||
    (path.getLast?.any isSlash && m.pattern.length == path.countP isSlash))
  return m

end Routes
end ClassAtlas.Web
