import ClassAtlas.Text.Raw

/-!
Slash-separated paths: their segments, their lexical normal form and their extension.
A path is raw text. Nothing here looks at files.
-/
namespace ClassAtlas.Path

def slash : UInt8 := 0x2F

def dot : UInt8 := 0x2E

/-- The texts between slashes. -/
def segments (path : RawText) : List RawText := (pieces (· == slash) path.bytes).map .mk

def isRooted (path : RawText) : Bool := path.bytes.head? == some slash

/-- What a segment means on the way along a path. -/
inductive Meaning where
  | stay
  | up
  | down
deriving Repr, DecidableEq

def Meaning.of (segment : RawText) : Meaning :=
  if segment = "" ∨ segment = "." then .stay else if segment = ".." then .up else .down

/-- One segment joins the segments of a normal path, the last of which comes first: one
that stays vanishes, and one that goes up undoes the one before. -/
def cleanStep (meaning : σ → Meaning) (rooted : Bool) (done : List σ) (segment : σ) : List σ :=
  match meaning segment with
  | .stay => done
  | .down => segment :: done
  | .up =>
    match done with
    | [] => if rooted then [] else [segment]
    | top :: rest => if meaning top = .up then segment :: done else rest

/-- The fewest segments that lead to the same place. -/
def normal (meaning : σ → Meaning) (rooted : Bool) (segments : List σ) : List σ :=
  (segments.foldl (cleanStep meaning rooted) []).reverse

/-- The shortest path that leads to the same place. -/
def clean (path : RawText) : RawText :=
  let rooted := isRooted path
  let kept := normal Meaning.of rooted (segments path)
  if rooted then "/" ++ .intercalate "/" kept
  else if kept.isEmpty then "." else .intercalate "/" kept

/-- A name below a directory, in normal form. -/
def join (directory name : RawText) : RawText := clean (directory ++ "/" ++ name)

/-- The last segment from its last dot on; empty when it has no dot. -/
def suffix (path : RawText) : RawText :=
  let last := path.bytes.reverse.takeWhile (· != slash)
  if last.contains dot then ⟨dot :: (last.takeWhile (· != dot)).reverse⟩ else .empty

/-! ### What an extension says -/

/-- The character that stands for all characters with the same simple case folding, as
far as the letters of `class` go. -/
def fold (c : Char) : Char := if c = 'ſ' then 's' else c.toLower

/-- Lower case, for the characters whose lower case is an ASCII letter. -/
def lower (c : Char) : Char :=
  if c = 'İ' then 'i' else if c.toNat = 0x212A then 'k' else c.toLower

/-- Whether the extension is `.class`, apart from case. -/
def isClass (path : RawText) : Bool := (suffix path).shown.toList.map fold == ".class".toList

/-- Whether the extension in lower case is `.jar` or `.zip`. -/
def isArchive (path : RawText) : Bool :=
  let ext := (suffix path).shown.toList.map lower
  ext == ".jar".toList || ext == ".zip".toList

end ClassAtlas.Path
