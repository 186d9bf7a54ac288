import ClassAtlas.Error
import ClassAtlas.Path

/-!
Files as a tree of directories, and the way a path leads through it: from directory to
directory, a dot staying and two dots going back up, and on from where a link points to.
Not everything can be read: a file may fail when it is opened or read, and a directory may
leave out entries when it is listed.
-/
namespace ClassAtlas

/-! ### Failures -/

/-- Why a path leads to no contents. -/
inductive PathCause where
  | missing
  | notDirectory
  | isDirectory
  | longName
  | invalid
  | denied
  | damaged
  | manyLinks
deriving Repr, DecidableEq

def PathCause.message : PathCause → String
  | missing => "no such file or directory"
  | notDirectory => "not a directory"
  | isDirectory => "is a directory"
  | longName => "file name too long"
  | invalid => "invalid argument"
  | denied => "permission denied"
  | damaged => "input/output error"
  | manyLinks => "too many levels of symbolic links"

/-- What is asked of the system about a path. -/
inductive Access where
  | inspecting
  | opening
  | reading
deriving Repr, DecidableEq

def Access.name : Access → String
  | inspecting => "stat"
  | opening => "open"
  | reading => "read"

/-- A failed operation on a path. -/
structure PathFault where
  access : Access
  path : RawText
  cause : PathCause
deriving Repr, DecidableEq

def PathFault.message (f : PathFault) : String :=
  f.access.name ++ " " ++ f.path.shown ++ ": " ++ f.cause.message

/-- The failure of a system call is the end of its chain. -/
def PathFault.error (f : PathFault) : Error := .text f.message

/-! ### Trees -/

inductive FileNode where
  /-- A file, with its contents or why it has none. -/
  | file (contents : Except (Access × PathCause) Bytes)
  /-- A directory. Its entries are listed in the order of their names, and paths lead to
  them; `unlisted` are those that a listing leaves out because it fails. -/
  | directory (entries unlisted : List (RawText × FileNode))
  | link (target : RawText)

namespace FileNode

def empty : FileNode := directory [] []

/-- The entry of a name. -/
def child? (name : RawText) : FileNode → Option FileNode
  | directory entries unlisted => (entries ++ unlisted).lookup name
  | _ => none

/-- Replaces the entry of a name, or adds it in its place. -/
def setEntry (name : RawText) (node : FileNode) : List (RawText × FileNode) → List (RawText × FileNode)
  | [] => [(name, node)]
  | (n, old) :: rest =>
    if name < n then (name, node) :: (n, old) :: rest
    else if name = n then (name, node) :: rest
    else (n, old) :: setEntry name node rest

/-- The node with what `update` makes of the place that the names lead to. Missing
directories on the way are made; anything else on the way is replaced by one. -/
def modifyAt (update : Option FileNode → FileNode) : List RawText → Option FileNode → FileNode
  | [], old => update old
  | name :: rest, old =>
    let (entries, unlisted) := match old with
      | some (directory entries unlisted) => (entries, unlisted)
      | _ => ([], [])
    directory (setEntry name (modifyAt update rest (entries.lookup name)) entries) unlisted

/-! ### Following a path -/

/-- Where the way along some segments ends: at a node, or at a link to follow, with the
directories above it and the segments still to go. -/
inductive Stop where
  | node (here : FileNode)
  | link (target : RawText) (above : List FileNode) (rest : List RawText)

/-- The greatest length of a name and of a path, in bytes. -/
def maxName : Nat := 255

def maxPath : Nat := 4095

/-- Goes along segments from a node below some directories, the nearest first. Nothing is
above the highest but itself. A link in the end is followed, or not. -/
def descend (followLast : Bool) (here : FileNode) (above : List FileNode) :
    List RawText → Except PathCause Stop
  | [] =>
    match here with
    | link target => .ok (if followLast then .link target above [] else .node here)
    | _ => .ok (.node here)
  | segment :: rest =>
    match here with
    | file _ => .error .notDirectory
    | link target => .ok (.link target above (segment :: rest))
    | directory .. =>
      match Path.Meaning.of segment with
      | .stay => descend followLast here above rest
      | .up =>
        match above with
        | [] => descend followLast here [] rest
        | parent :: above => descend followLast parent above rest
      | .down =>
        if maxName < segment.size then .error .longName
        else match here.child? segment with
          | some child => descend followLast child (here :: above) rest
          | none => .error .missing

/-- The place that a path starts at, seen from a directory: the highest if it is rooted. -/
def origin (path : RawText) (directories : List FileNode) : List FileNode :=
  if Path.isRooted path then directories.drop (directories.length - 1) else directories

/-- The node that segments lead to from the first of some directories, along no more than
`links` links. -/
def resolve (followLast : Bool) (links : Nat) (directories : List FileNode) (segments : List RawText) :
    Except PathCause FileNode :=
  match directories with
  | [] => .error .missing
  | here :: above =>
    match descend followLast here above segments with
    | .error cause => .error cause
    | .ok (.node found) => .ok found
    | .ok (.link target above rest) =>
      match links with
      | 0 => .error .manyLinks
      | links + 1 => resolve followLast links (origin target above) (Path.segments target ++ rest)

/-- The most links that one path may lead along. -/
def maxLinks : Nat := 40

end FileNode

/-- A tree as it is seen from a working directory, to which the names lead. -/
structure FileTree where
  root : FileNode
  place : List RawText

namespace FileTree

/-- The working directory and those above it. -/
def workplace (t : FileTree) : List FileNode :=
  t.place.foldl (fun above name => ((above.head?.bind (·.child? name)).getD .empty) :: above) [t.root]

/-- What a path leads to. -/
def resolve (t : FileTree) (followLast : Bool) (path : RawText) : Except PathCause FileNode :=
  if path = "" then .error .missing
  else if path.bytes.contains 0 then .error .invalid
  else if FileNode.maxPath < path.size then .error .longName
  else FileNode.resolve followLast FileNode.maxLinks (FileNode.origin path t.workplace) (Path.segments path)

/-- The names from the root to what a path names. -/
def names (t : FileTree) (path : RawText) : List RawText :=
  let segments := Path.segments path
  Path.normal Path.Meaning.of true (if Path.isRooted path then segments else t.place ++ segments)

def write (t : FileTree) (path : RawText) (bytes : Bytes) : FileTree :=
  { t with root := FileNode.modifyAt (fun _ => .file (.ok bytes)) (t.names path) (some t.root) }

/-- Makes a directory, unless it is there. -/
def makeDirectory (t : FileTree) (path : RawText) : FileTree :=
  { t with root := FileNode.modifyAt (·.getD .empty) (t.names path) (some t.root) }

end FileTree

/-! ### Disks -/

/-- Files behind three operations: what a path leads to, whether the path itself is a link,
and giving a file its contents. -/
structure Disk (δ : Type) where
  find : δ → RawText → Except PathCause FileNode
  isLink : δ → RawText → Bool
  write : δ → RawText → Bytes → δ

/-- The contents of the file that a path leads to. -/
def Disk.read (disk : Disk δ) (files : δ) (path : RawText) : Except PathFault Bytes :=
  match disk.find files path with
  | .ok (.file (.ok bytes)) => .ok bytes
  | .ok (.file (.error (access, cause))) => .error ⟨access, path, cause⟩
  | .ok (.directory ..) => .error ⟨.reading, path, .isDirectory⟩
  | .ok (.link _) => .error ⟨.opening, path, .manyLinks⟩
  | .error cause => .error ⟨.opening, path, cause⟩

/-- A tree is a disk by itself. -/
def FileTree.disk : Disk FileTree where
  find t path := t.resolve true path
  isLink t path := (t.resolve false path) matches .ok (.link _)
  write := write

end ClassAtlas
