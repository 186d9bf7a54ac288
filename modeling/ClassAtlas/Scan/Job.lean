import ClassAtlas.Digest
import ClassAtlas.Index.Document
import ClassAtlas.Scan.Cache
import ClassAtlas.Scan.Event
import ClassAtlas.Scan.Stats

/-!
The work on one unit. Its bytes are looked up in the cache by their digest; if they are not there,
they are analyzed and the analysis is remembered; the document is counted; then it is handed to a
sink, which may refuse it. Each stage touches what all units share at one point, so that the
work on several units can be taken up in turns (`Stage.next`).
-/
namespace ClassAtlas.Scan
open Xref
open Index (Document)

/-- A scanner between two units. -/
structure Scanner where
  links : Linker
  cache : Cache Analysis
  stats : Stats

namespace Scanner

/-- The message about a cache without room. -/
def noRoom : String := "result cache: must provide a positive size"

/-- A scanner with a cache of the given size, which must be positive. -/
def create? (links : Linker) (cacheSize : Int) : Option Scanner :=
  if cacheSize ≤ 0 then none else some ⟨links, .empty cacheSize.toNat, .none⟩

/-- Records an error. -/
def fail (s : Scanner) (e : UnitError) : Scanner := { s with stats := s.stats.fail e }

/-- Counts a document that was made. -/
def made (s : Scanner) (fromCache : Bool) : Scanner :=
  { s with stats := { s.stats with
      indexed := s.stats.indexed + 1
      cached := s.stats.cached + if fromCache then 1 else 0 } }

def countUnit (s : Scanner) : Scanner := { s with stats := { s.stats with units := s.stats.units + 1 } }

end Scanner

/-- Where documents go. A sink may refuse one, with a reason. -/
structure Sink (σ : Type) where
  put : σ → Document → Except String σ

/-- What the work on all units shares. -/
structure Bench (σ : Type) where
  scanner : Scanner
  target : σ

namespace Bench

def fail (b : Bench σ) (e : UnitError) : Bench σ := { b with scanner := b.scanner.fail e }

def setCache (b : Bench σ) (cache : Cache Analysis) : Bench σ := { b with scanner := { b.scanner with cache } }

end Bench

/-- How far the work on a unit has got. -/
inductive Stage where
  | waiting
  | begun
  /-- The cache did not have the analysis. -/
  | missed (bytes : Bytes)
  | analyzed (bytes : Bytes) (analysis : Analysis) (fromCache : Bool)
  | ready (document : Document)
  | stored (document : Document)
  | refused (document : Document) (reason : String)
  | failed (error : UnitError)
  /-- Never begun, because the run was stopped. -/
  | dropped
deriving DecidableEq

namespace Stage

/-- There is nothing left to do. -/
def isOver : Stage → Bool
  | stored _ | refused .. | failed _ | dropped => true
  | _ => false

/-- The next stage of a unit's work, in a run that is stopped or not. -/
def next (sink : Sink σ) (stopped : Bool) (u : ClassUnit) (b : Bench σ) : Stage → Bench σ × Stage
  | waiting => (b, if stopped then dropped else begun)
  | begun =>
    match u.bytes with
    | .error fault => (b.fail ⟨u.name, fault.error⟩, failed ⟨u.name, fault.error⟩)
    | .ok bytes =>
      match b.scanner.cache.get? (Digest.sha256 bytes).hex with
      | (some a, cache) => (b.setCache cache, analyzed bytes a true)
      | (none, _) => (b, missed bytes)
  | missed bytes =>
    match analyzeBytes b.scanner.links bytes with
    | .ok a => (b.setCache (b.scanner.cache.add (Digest.sha256 bytes).hex a), analyzed bytes a false)
    | .error error => (b.fail ⟨u.name, error⟩, failed ⟨u.name, error⟩)
  | analyzed bytes a fromCache =>
    ({ b with scanner := b.scanner.made fromCache }, ready (.ofAnalysis u.name (Digest.sha256 bytes).hex a))
  | ready d =>
    match sink.put b.target d with
    | .ok target => ({ b with target }, stored d)
    | .error reason => (b, refused d reason)
  | stage => (b, stage)

/-- So many stages in a row. -/
def advance (sink : Sink σ) (u : ClassUnit) : Nat → Bench σ × Stage → Bench σ × Stage
  | 0, done => done
  | n + 1, (b, stage) => advance sink u n (stage.next sink false u b)

/-- The most stages that are still to come. -/
def rank : Stage → Nat
  | waiting => 5
  | begun => 4
  | missed _ => 3
  | analyzed .. => 2
  | ready _ => 1
  | stored _ | refused .. | failed _ | dropped => 0

end Stage

/-! ### Single units -/

inductive ProcessError where
  | unit (error : UnitError)
  | sink (reason : String)
deriving Repr, DecidableEq

def ProcessError.message : ProcessError → String
  | unit error => error.message
  | sink reason => reason

def ProcessError.kind : ProcessError → Kind
  | unit error => error.kind
  | sink _ => .io

/-- What a caller is told about a unit whose work is over. -/
def Stage.reply : Stage → Except ProcessError Unit
  | failed e => .error (.unit e)
  | refused _ reason => .error (.sink reason)
  | _ => .ok ()

/-- All the work on a unit, without a break, adding to the totals. -/
def Scanner.finish (sink : Sink σ) (s : Scanner) (t : σ) (u : ClassUnit) : Bench σ × Stage :=
  Stage.advance sink u Stage.begun.rank (⟨s.countUnit, t⟩, .begun)

/-- Analyzes one unit and hands its document over. -/
def Scanner.process (sink : Sink σ) (s : Scanner) (t : σ) (u : ClassUnit) :
    Except ProcessError Unit × Scanner × σ :=
  let (b, stage) := s.finish sink t u
  (stage.reply, b.scanner, b.target)

end ClassAtlas.Scan
