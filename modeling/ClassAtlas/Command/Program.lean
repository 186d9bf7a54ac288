import ClassAtlas.Command.Address
import ClassAtlas.Command.Line
import ClassAtlas.Index.Image
import ClassAtlas.Report
import ClassAtlas.Scan.Scanner
import ClassAtlas.SettingsFile
import ClassAtlas.Web.Server

/-!
The program: a command line is read, the settings are gathered, and the command runs
against a disk. Its index is kept in a file of that disk, which a command that needs it
creates before it does anything else. Watching and serving are followed up to the point
where the wait for changes and requests begins.
-/
namespace ClassAtlas.Command
open Xref

/-! ### Failures -/

/-- Why there is no analysis of a file. -/
inductive FileFailure where
  | unopened (fault : PathFault)
  | analysis (error : Error)
deriving Repr, DecidableEq

namespace FileFailure

def message : FileFailure → String
  | unopened fault => "failed to open class file: " ++ fault.message
  | analysis error => error.message

def kind : FileFailure → Kind
  | unopened _ => .io
  | analysis error => error.kind

end FileFailure

inductive DatabaseFault where
  | path (fault : PathFault)
  | image (fault : Index.Store.ImageFault)
deriving Repr, DecidableEq

def DatabaseFault.message : DatabaseFault → String
  | path fault => "bbolt open: " ++ fault.message
  | image fault => "bbolt open: " ++ fault.message

inductive CommandError where
  | format (fault : Report.Format.Unknown)
  | analysis (path : String) (failure : FileFailure)
  | comparison (path : String) (failure : FileFailure)
  /-- More common lines were asked for than places can be counted. -/
  | difference
  | database (fault : DatabaseFault)
  | store (error : Index.StoreError)
  | cache
  | run (error : Scan.RunError)
  | server (error : Web.ServerError)
  | address (address : String) (fault : Address.Fault)
deriving Repr, DecidableEq

def CommandError.message : CommandError → String
  | format fault => fault.message
  | analysis path failure => "analyze " ++ path ++ " (" ++ failure.kind.name ++ "): " ++ failure.message
  | comparison path failure => "analyze " ++ path ++ ": " ++ failure.message
  | difference => "slice bounds out of range"
  | database fault => fault.message
  | store error => error.message
  | cache => Scan.Scanner.noRoom
  | run error => error.message
  | server error => "create server: " ++ error.message
  | address written fault => fault.message written

/-! ### Settings -/

/-- The variables of the settings file, if there is one that can be read. -/
def fileVariables (disk : Disk δ) (files : δ) : SettingsFile.Variables :=
  match disk.read files ".env" with
  | .ok bytes => (SettingsFile.parse bytes).getD []
  | .error _ => []

/-- The settings that given variables and the settings file make. -/
def settingsFrom (disk : Disk δ) (files : δ) (given : SettingsFile.Variables) :
    Except Settings.Fault Settings :=
  let all := SettingsFile.supplement given (fileVariables disk files)
  Settings.ofEnvironment fun key => (all.lookup key).getD ""

/-- What commands go by once flags have overridden settings. -/
structure Terms where
  links : Linker
  urlPrefix : String
  database : String
  cacheSize : Int

def Terms.of (s : Settings) (o : Options) : Terms :=
  let stem := o.urlPrefix.getD s.urlPrefix
  ⟨⟨stem⟩, stem, o.database.getD s.database, o.cacheSize.getD s.cacheSize⟩

/-! ### Class files -/

/-- The analysis of the class file under a path. A directory can be opened but not read. -/
def analyzeFile (disk : Disk δ) (files : δ) (links : Linker) (path : String) :
    Except FileFailure Analysis :=
  match disk.read files path with
  | .ok bytes => (analyzeBytes links bytes).mapError .analysis
  | .error fault =>
    match fault.access with
    | .reading => (analyzeInput links ⟨[], .failing fault.error⟩).mapError .analysis
    | _ => .error (.unopened fault)

/-- The reports on files, up to the first that has none. -/
def reports (disk : Disk δ) (files : δ) (links : Linker) (f : Report.Format) :
    List String → String × Option CommandError
  | [] => ("", none)
  | path :: rest =>
    match analyzeFile disk files links path with
    | .error failure => ("", some (.analysis path failure))
    | .ok a =>
      let (text, error) := reports disk files links f rest
      (Report.write (.ofAnalysis a) f ++ text, error)

/-- The text of an analysis that is compared: its rendition, then its literals. -/
def comparedText (html : Bool) (a : Analysis) : String :=
  let text := if html then a.text else Text.plainText a.text
  if a.literalText = "" then text else text ++ "\n" ++ a.literalText

def difference (disk : Disk δ) (files : δ) (links : Linker) (o : Options) (left right : String) :
    Except CommandError String := do
  let a ← (analyzeFile disk files links left).mapError (.comparison left)
  let b ← (analyzeFile disk files links right).mapError (.comparison right)
  match Diff.unified left right (comparedText o.html a) (comparedText o.html b) o.context with
  | some text => return text
  | none => throw .difference

/-! ### The index -/

/-- The directory that a path is looked up in. -/
def parent (path : String) : String :=
  let cs := path.toList.reverse.dropWhile (· == '/')
  match cs.dropWhile (· ≠ '/') with
  | [] => if path.startsWith "/" then "/" else "."
  | rest => String.ofList rest.reverse

/-- The contents of a file that is opened for writing; `none` if it has to be made. -/
def contents (disk : Disk δ) (files : δ) (path : String) : Except PathCause (Option Bytes) := do
  if path = "" then throw .missing
  if path.endsWith "/" then
    let _ ← disk.find files (parent path)
    throw .isDirectory
  match disk.find files path with
  | .ok (.file (.ok bytes)) => return some bytes
  | .ok (.file (.error (_, cause))) => throw cause
  | .ok (.directory ..) => throw .isDirectory
  | .ok (.link _) => throw .manyLinks
  | .error .missing =>
    let _ ← disk.find files (parent path)
    return none
  | .error cause => throw cause

def openStore (disk : Disk δ) (files : δ) (path : String) : Except DatabaseFault Index.Store := do
  match ← (contents disk files path).mapError fun cause => .path ⟨.opening, path, cause⟩ with
  | none => return .empty
  | some bytes => (Index.Store.ofImage bytes).mapError .image

def saveStore (disk : Disk δ) (files : δ) (path : String) (s : Index.Store) : δ :=
  disk.write files path s.image

/-! ### Commands -/

/-- How a command ended: what it wrote, the files it left, its error if it failed. -/
structure Finish (δ : Type) where
  output : String
  files : δ
  error : Option CommandError

/-- Runs with the store of a database, which is there from then on. -/
def withStore (disk : Disk δ) (files : δ) (path : String)
    (k : Index.Store → δ → Option (Finish δ)) : Option (Finish δ) :=
  match openStore disk files path with
  | .error fault => some ⟨"", files, some (.database fault)⟩
  | .ok s => k s (saveStore disk files path s)

def intoStore : Scan.Sink Index.Store where
  put s d := (s.put d).mapError (·.message)

/-- Scans a path into the store; `report` is what the totals come to as output. -/
def scanInto (disk : Disk δ) (files : δ) (depth : Nat) (t : Terms) (path : String)
    (report : Scan.Stats → String) : Option (Finish δ) :=
  withStore disk files t.database fun store files =>
    match Scan.Scanner.create? t.links t.cacheSize with
    | none => some ⟨"", files, some .cache⟩
    | some scanner => do
      let (outcome, _, store) ←
        scanner.run intoStore Archive.Zip.entries depth disk files false path store
      return ⟨(outcome.stats.map report).getD "", saveStore disk files t.database store,
        outcome.error.map .run⟩

def statsText (withErrors : Bool) (s : Scan.Stats) : String :=
  let totals := "Units: " ++ toString s.units ++ "\nIndexed: " ++ toString s.indexed ++ " (" ++
    toString s.cached ++ " from cache)\nFailed: " ++ toString s.failed ++ "\n"
  let kinds := (Kind.all.filter (s.failures · ≠ 0)).map fun k =>
    "  " ++ k.name ++ ": " ++ toString (s.failures k) ++ "\n"
  let errors := if withErrors then s.errors.map fun e => "  - " ++ e.message ++ "\n" else []
  String.join (totals :: kinds ++ errors)

def search (disk : Disk δ) (files : δ) (t : Terms) (field term : String) : Option (Finish δ) :=
  withStore disk files t.database fun store files =>
    match (Index.Database.mk store true).searchNamed field term with
    | .error e => some ⟨"", files, some (.store e)⟩
    | .ok paths => some ⟨Report.tokenLines ((paths.getD []).map RawText.shown), files, none⟩

def serve (disk : Disk δ) (files : δ) (t : Terms) (address : String) : Option (Finish δ) :=
  withStore disk files t.database fun _ files =>
    match Web.Server.create t.urlPrefix with
    | .error e => some ⟨"", files, some (.server e)⟩
    | .ok _ =>
      let shown := if address.startsWith ":" then "localhost" ++ address else address
      let error := match Address.check address with
        | .ok () => none
        | .error fault => some (.address address fault)
      some ⟨"Starting server at http://" ++ shown ++ "\n", files, error⟩

def watch (disk : Disk δ) (files : δ) (depth : Nat) (t : Terms) (o : Options) (path : String) :
    Option (Finish δ) :=
  if o.initial then scanInto disk files depth t path fun _ => ""
  else withStore disk files t.database fun _ files =>
    some ⟨"", files, if t.cacheSize ≤ 0 then some .cache else none⟩

def analyze (disk : Disk δ) (files : δ) (t : Terms) (o : Options) (paths : List String) : Finish δ :=
  match Report.Format.ofName o.format with
  | .error fault => ⟨"", files, some (.format fault)⟩
  | .ok f =>
    let (text, error) := reports disk files t.links f paths
    ⟨text, files, error⟩

def diff (disk : Disk δ) (files : δ) (t : Terms) (o : Options) (left right : String) : Finish δ :=
  match difference disk files t.links o left right with
  | .ok text => ⟨text, files, none⟩
  | .error e => ⟨"", files, some e⟩

/-- Runs a command. Arguments in a number that its arity excludes mean nothing. -/
def execute (disk : Disk δ) (files : δ) (depth : Nat) (t : Terms) (o : Options) :
    Verb → List String → Option (Finish δ)
  | .analyze, paths => some (analyze disk files t o paths)
  | .diff, [left, right] => some (diff disk files t o left right)
  | .index, [path] => scanInto disk files depth t path (statsText o.errors)
  | .search, [term] => search disk files t o.field term
  | .watch, [path] => watch disk files depth t o path
  | .serve, [] => serve disk files t o.address
  | _, _ => some ⟨"", files, none⟩

/-! ### The whole program -/

structure Answer where
  code : Nat
  output : String
  errors : String
deriving Repr, DecidableEq

def errorLine (message : String) : String := "Error: " ++ message ++ "\n"

/-- A line that names no command is answered with a hint. -/
def LineError.report (e : LineError) : String :=
  errorLine e.message ++ match e with
    | .unknownCommand _ => "Run '" ++ programName ++ " --help' for usage.\n"
    | _ => ""

def Finish.answer (f : Finish δ) : Answer :=
  match f.error with
  | none => ⟨0, f.output, ""⟩
  | some (.server .routes) | some .difference => ⟨2, f.output, ""⟩
  | some e => ⟨1, f.output, errorLine e.message⟩

/-- Runs the program on its arguments and variables. `none` when archives are nested
`depth` deep and a scan comes to them. -/
def run (disk : Disk δ) (given : SettingsFile.Variables) (depth : Nat) (files : δ)
    (arguments : List String) : Option (Answer × δ) :=
  match readLine arguments with
  | .error e => some (⟨1, "", e.report⟩, files)
  | .ok .about => some (⟨0, "", ""⟩, files)
  | .ok (.run verb options arguments) =>
    match settingsFrom disk files given with
    | .error fault => some (⟨1, "", errorLine fault.message⟩, files)
    | .ok settings =>
      (execute disk files depth (.of settings options) options verb arguments).map fun f => (f.answer, f.files)

end ClassAtlas.Command
