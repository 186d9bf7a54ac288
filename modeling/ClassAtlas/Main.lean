import ClassAtlas.Command.Program

/-!
The program on the machine it runs on. Everything a command may look at is read before
it runs, and the one file it may write is written after it has run.
-/
namespace ClassAtlas.Machine

/-- What was read of a machine's files, path by path, and what has been written since. -/
structure Copy where
  found : List (RawText × Except PathCause FileNode)
  links : List RawText
  written : Option (RawText × Bytes)

def disk : Disk Copy where
  find c path := match c.written with
    | some (p, bytes) => if p = path then .ok (.file (.ok bytes)) else (c.found.lookup path).getD (.error .missing)
    | none => (c.found.lookup path).getD (.error .missing)
  isLink c path := c.links.contains path
  write c path bytes := { c with written := some (path, bytes) }

def causeOf : IO.Error → PathCause
  | .noFileOrDirectory .. => .missing
  | .inappropriateType .. => .notDirectory
  | .permissionDenied .. => .denied
  | .hardwareFault .. => .damaged
  | _ => .invalid

/-- A path is a link if it does not stand where it leads. -/
def isLink (path : RawText) : IO Bool := do
  let last := (Path.segments path).getLastD .empty
  if Path.Meaning.of last ≠ .down then return false
  try
    let real ← IO.FS.realPath path.shown
    let above ← IO.FS.realPath (Command.parent path.shown)
    return real.toString ≠ (Path.join above.toString last).shown
  catch _ => return false

/-- Reads what is under a path, and then what is under each path below it. -/
partial def load (path : RawText) :
    IO (Except PathCause FileNode × List (RawText × Except PathCause FileNode)) := do
  try
    let listing ← (← IO.FS.realPath path.shown).readDir
    let names := (listing.map (·.fileName)).toList.mergeSort fun a b => !(b < a)
    let below ← names.filterMapM fun (name : String) => do
      let child := Path.join path name
      match ← load child with
      | (.ok node, rest) =>
        -- What a walk sees of a link to a directory is no directory.
        let node := if ← isLink child then .file (.error (.reading, .isDirectory)) else node
        return some (RawText.ofString name, node, (child, .ok node) :: rest)
      | (.error _, _) => return none
    return (.ok (.directory (below.map fun (name, node, _) => (name, node)) []), below.flatMap (·.2.2))
  catch _ =>
    try return (.ok (.file (.ok (← IO.FS.readBinFile path.shown).toList)), [])
    catch e =>
      match causeOf e with
      | .denied => return (.ok (.file (.error (.opening, .denied))), [])
      | cause => return (.error cause, [])

/-- Looks at what is under a path; of a directory, only its being there counts. -/
def glance (path : String) : IO (Except PathCause FileNode) := do
  try
    let _ ← (← IO.FS.realPath path).readDir
    return .ok .empty
  catch e => return .error (causeOf e)

/-- Adds what is under a path. -/
def Copy.add (c : Copy) (path : String) : IO Copy := do
  let (node, below) ← load path
  let links := if ← isLink path then [RawText.ofString path] else []
  return { c with found := (RawText.ofString path, node) :: below ++ c.found, links := links ++ c.links }

/-- The variables that are set. -/
def readVariables : IO SettingsFile.Variables :=
  Settings.variableNames.filterMapM fun name => do
    return (← IO.getEnv name).map fun value => (name, value)

/-- Reads what a command line refers to. -/
def gather (vars : SettingsFile.Variables) (arguments : List String) : IO Copy := do
  let c ← Copy.add ⟨[], [], none⟩ ".env"
  match Command.readLine arguments, Command.settingsFrom disk c vars with
  | .ok (.run verb options arguments), .ok settings =>
    let database := (Command.Terms.of settings options).database
    let paths := match verb with
      | .analyze | .diff => arguments
      | .search | .serve => [database]
      | .index | .watch => database :: arguments
    let c ← paths.foldlM Copy.add c
    let directory := Command.parent database
    return { c with found := c.found ++ [(RawText.ofString directory, ← glance directory)] }
  | _, _ => return c

/-- The depths that archives are walked to, each only if the one before is not enough. -/
def depths : List Nat := [64, 4096]

end ClassAtlas.Machine

open ClassAtlas in
def main (arguments : List String) : IO UInt32 := do
  let vars ← Machine.readVariables
  let copy ← Machine.gather vars arguments
  match Machine.depths.findSome? fun depth => Command.run Machine.disk vars depth copy arguments with
  | some (answer, files) =>
    match files.written with
    | some (path, bytes) => IO.FS.writeBinFile path.shown ⟨bytes.toArray⟩
    | none => pure ()
    (← IO.getStdout).putStr answer.output
    (← IO.getStderr).putStr answer.errors
    return answer.code.toUInt32
  | none =>
    (← IO.getStderr).putStr "Error: archives are nested too deeply\n"
    return 1
