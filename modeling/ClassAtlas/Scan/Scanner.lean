import ClassAtlas.Scan.Crew

/-!
Scanning below a path: the units that a walk finds are analyzed, equal files only once as long as the
cache remembers them, and the documents are handed to a sink. Failures of analysis are
counted; a failure of the sink ends the run at the next thing it would look at.

A run comes to the same for every order in which a crew may take its turns, apart from the order of
errors and documents and from how many analyses the cache had. `Scanner.run` finishes each job before
the walk goes on.
-/
namespace ClassAtlas.Scan

/-- How a run ended: its totals, unless there was nothing to walk, and its error. -/
structure Outcome where
  stats : Option Stats
  error : Option RunError
deriving Repr, DecidableEq

/-- What a walk goes by on a disk. -/
def Ways.on (disk : Disk δ) (files : δ) (opener : Opener) (depth : Nat) : Ways := ⟨opener, depth, disk.read files⟩

/-- Indexes every class below a path. `none` when archives are nested `depth` deep and nothing
ends the run before the walk comes to them. -/
def Scanner.run (sink : Sink σ) (opener : Opener) (depth : Nat) (disk : Disk δ) (files : δ)
    (cancelled : Bool) (path : RawText) (s : Scanner) (t : σ) : Option (Outcome × Scanner × σ) :=
  match disk.find files path with
  | .error cause => some (⟨none, some (.root ⟨.inspecting, path, cause⟩)⟩, s, t)
  | .ok node =>
    let root := Root.of disk files path node
    let trail := root.trail (.on disk files opener depth) path
    let c := (Crew.start s t cancelled trail.events).run sink (Crew.inOrder trail.events.length)
    let error := match root with
      | .unsupported suffix => some (.unsupported suffix)
      | _ => c.error?
    if trail.whole || c.halted then
      some (⟨some c.bench.scanner.stats, error⟩, c.bench.scanner, c.bench.target)
    else none

end ClassAtlas.Scan
