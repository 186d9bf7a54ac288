import ClassAtlas.Archive.Zip
import ClassAtlas.Files

/-!
What a walk comes across, in order. A walk goes through directories, leaving out the
hidden ones below its root, and through archives, archives inside them included; it
finds class files as units and records what it cannot open or read.

Directories are walked as they are listed; anything else in them is known by its name alone,
and what it holds is what its path leads to. A link is never walked along, not even at the root.

Nothing bounds the nesting of archives, for an entry may hold an archive as large as
the one it is in. A walk is therefore given a depth, and ends short of the first archive
that is nested deeper. How archives are opened is a parameter.
-/
namespace ClassAtlas.Scan

/-- A class file to analyze: the name it goes by and its bytes, or why there are none. -/
structure ClassUnit where
  name : RawText
  bytes : Except PathFault Bytes

inductive Event where
  /-- The walk looks at the next file, directory or entry. -/
  | visit
  | unit (unit : ClassUnit)
  | unreadable (name : RawText) (error : Error)

/-- What a walk comes across, and whether it goes all the way. -/
structure Trail where
  events : List Event
  whole : Bool

namespace Trail

/-- All that there is to come across. -/
def of (events : List Event) : Trail := ⟨events, true⟩

/-- One walk after another, unless the first ends short. -/
def follow (first second : Trail) : Trail :=
  if first.whole then ⟨first.events ++ second.events, second.whole⟩ else first

def concat (trails : List Trail) : Trail := trails.foldr follow (of [])

end Trail

/-! ### Archives -/

/-- A way of opening archives. -/
abbrev Opener := Archive.Source → Bytes → Except Archive.Fault (List Archive.Entry)

/-- The most bytes that are read of one entry. -/
def entryLimit : Nat := 67108864

/-- The contents of an entry, unless it declares or has more bytes than the limit. -/
def readEntry (e : Archive.Entry) : Except Error Bytes :=
  if entryLimit < e.size then
    .error (Sentinel.entryTooLarge.saying (toString e.size ++ " bytes declared"))
  else
    match e.content () with
    | .error fault => .error fault.error
    | .ok bytes =>
      if entryLimit < bytes.length then
        .error (Sentinel.entryTooLarge.saying ("over " ++ toString entryLimit ++ " bytes"))
      else .ok bytes

/-- The name of an archive's entry. -/
def entryName (archive entry : RawText) : RawText := archive ++ "!/" ++ entry

/-- The trail of an entry, given those of the archives inside archives. -/
def entryTrail (nested : RawText → Bytes → Trail) (archive : RawText) (e : Archive.Entry) : Trail :=
  if e.isDirectory || !(Path.isClass e.name || Path.isArchive e.name) then .of [.visit]
  else
    let name := entryName archive e.name
    match readEntry e with
    | .error error => .of [.visit, .unreadable name error]
    | .ok bytes =>
      if Path.isArchive e.name then (Trail.of [.visit]).follow (nested name bytes)
      else .of [.visit, .unit ⟨name, .ok bytes⟩]

/-- The trail of an archive. It is whole if no archives are nested `depth` deep. -/
def archiveTrail (opener : Opener) : (depth : Nat) → Archive.Source → RawText → Bytes → Trail
  | 0, _, _, _ => ⟨[], false⟩
  | depth + 1, source, name, bytes =>
    match opener source bytes with
    | .error fault => .of [.unreadable name fault.error]
    | .ok entries => .concat (entries.map (entryTrail (archiveTrail opener depth .memory) name))

/-! ### Directories -/

def isHidden (name : RawText) : Bool := name.bytes.head? == some Path.dot

/-- What a walk goes by: how archives are opened and how deep, and what paths hold. -/
structure Ways where
  opener : Opener
  depth : Nat
  read : RawText → Except PathFault Bytes

/-- The trail of the archive under a path. -/
def pathArchiveTrail (w : Ways) (path name : RawText) : Trail :=
  match w.read path with
  | .error fault => .of [.unreadable name fault.error]
  | .ok bytes => archiveTrail w.opener w.depth (.file path) name bytes

/-- The trail of something that is no directory, by its path. -/
def fileTrail (w : Ways) (path name : RawText) : Trail :=
  if Path.isClass path then .of [.visit, .unit ⟨name, w.read path⟩]
  else if Path.isArchive path then (Trail.of [.visit]).follow (pathArchiveTrail w path name)
  else .of [.visit]

mutual

/-- The trail of a node below the root, which has a path and a name relative to the root. -/
def nodeTrail (w : Ways) (path name base : RawText) : FileNode → Trail
  | .directory entries _ =>
    if isHidden base then .of [.visit]
    else (Trail.of [.visit]).follow (entriesTrail w path (name ++ "/") entries)
  | .file _ => fileTrail w path name
  | .link _ => fileTrail w path name

/-- The trail of a directory's entries, whose names start with `lead`. -/
def entriesTrail (w : Ways) (path lead : RawText) : List (RawText × FileNode) → Trail
  | [] => .of []
  | (base, node) :: rest =>
    (nodeTrail w (Path.join path base) (lead ++ base) base node).follow (entriesTrail w path lead rest)

end

/-! ### Roots -/

/-- What can be walked from. -/
inductive Root where
  | directory (entries : List (RawText × FileNode))
  /-- A link to a directory. -/
  | link
  | archive
  | classFile
  | unsupported (suffix : RawText)

/-- An entry of a directory as its path shows it. Paths below a root are in normal form, so
behind a link and two dots they may lead elsewhere than the listing. -/
def seen (disk : Disk δ) (files : δ) (path : RawText) : RawText × FileNode → RawText × FileNode
  | (base, .directory ..) =>
    match disk.find files (Path.join path base) with
    | .ok (.directory entries unlisted) => (base, .directory entries unlisted)
    | _ => (base, .empty)
  | entry => entry

def Root.of (disk : Disk δ) (files : δ) (path : RawText) : FileNode → Root
  | .directory entries _ =>
    if disk.isLink files path then .link else .directory (entries.map (seen disk files path))
  | _ =>
    if Path.isArchive path then .archive
    else if Path.isClass path then .classFile
    else .unsupported (Path.suffix path)

def Root.trail (w : Ways) (path : RawText) : Root → Trail
  | .directory entries => (Trail.of [.visit]).follow (entriesTrail w path .empty entries)
  | .link => fileTrail w path "."
  | .archive => pathArchiveTrail w path path
  | .classFile => .of [.unit ⟨path, w.read path⟩]
  | .unsupported _ => .of []

end ClassAtlas.Scan
