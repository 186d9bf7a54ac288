import ClassAtlas.Scan.Job

/-!
A walk and the jobs that it hands out. The walk takes the events of a trail one by one; a unit that it
comes across is counted and becomes a job. Jobs are worked on while the walk goes on, in any order
and with their stages mixed: a *turn* is one step of the walk or one stage of one job.

A crew is stopped when it is cancelled from outside or a job has failed. Then the walk ends where it
next looks, and jobs that have not begun are dropped; those that have are finished.
-/
namespace ClassAtlas.Scan

inductive RunError where
  | root (fault : PathFault)
  | cancelled
  | store (name : RawText) (reason : String)
  | unsupported (suffix : RawText)
deriving Repr, DecidableEq

def RunError.message : RunError → String
  | root fault => "stat " ++ fault.path.shown ++ ": " ++ fault.message
  | cancelled => "context canceled"
  | store name reason => "store " ++ name.shown ++ ": " ++ reason
  | unsupported suffix => "unsupported file type: " ++ suffix.shown

structure Job where
  unit : ClassUnit
  stage : Stage

/-- The failure of a job, which is not that of its unit. -/
def Job.trouble? (j : Job) : Option RunError :=
  match j.stage with
  | .refused _ reason => some (.store j.unit.name reason)
  | .dropped => some .cancelled
  | _ => none

/-- Jobs stand with the newest first. -/
structure Crew (σ : Type) where
  bench : Bench σ
  /-- What the walk has still to come across. -/
  ahead : List Event
  jobs : List Job
  cancelled : Bool
  /-- The first failure of a job. -/
  trouble : Option RunError
  /-- The walk ended because the crew was stopped. -/
  halted : Bool

inductive Turn where
  | walk
  | job (place : Nat)
  /-- Somebody outside cancels the run. -/
  | cancel
deriving Repr, DecidableEq

namespace Crew

/-- A crew that is to walk along some events, with new totals and the cache as it is. -/
def start (s : Scanner) (t : σ) (cancelled : Bool) (events : List Event) : Crew σ where
  bench := ⟨{ s with stats := .none }, t⟩
  ahead := events
  jobs := []
  cancelled
  trouble := none
  halted := false

def isStopped (c : Crew σ) : Bool := c.cancelled || c.trouble.isSome

def halt (c : Crew σ) : Crew σ := { c with ahead := [], halted := true }

/-- The next step of the walk. -/
def walk (c : Crew σ) : Crew σ :=
  match c.ahead with
  | [] => c
  | .visit :: rest => if c.isStopped then c.halt else { c with ahead := rest }
  | .unreadable name error :: rest => { c with bench := c.bench.fail ⟨name, error⟩, ahead := rest }
  | .unit u :: rest =>
    if c.isStopped then c.halt
    else { c with
      bench := { c.bench with scanner := c.bench.scanner.countUnit }
      ahead := rest
      jobs := ⟨u, .waiting⟩ :: c.jobs }

/-- The next stage of the job at a place, if there is one. -/
def work (sink : Sink σ) (c : Crew σ) (place : Nat) : Crew σ :=
  match c.jobs[place]? with
  | none => c
  | some j =>
    let (bench, stage) := j.stage.next sink c.isStopped j.unit c.bench
    let j := { j with stage }
    { c with bench, jobs := c.jobs.set place j, trouble := c.trouble <|> j.trouble? }

def turn (sink : Sink σ) (c : Crew σ) : Turn → Crew σ
  | .walk => c.walk
  | .job place => c.work sink place
  | .cancel => { c with cancelled := true }

def run (sink : Sink σ) (c : Crew σ) (turns : List Turn) : Crew σ := turns.foldl (turn sink) c

/-- The walk has ended and all jobs are over. -/
def IsOver (c : Crew σ) : Prop := c.ahead = [] ∧ ∀ j ∈ c.jobs, j.stage.isOver = true

/-- How the run ended. What stops the walk is told before what stopped a job. -/
def error? (c : Crew σ) : Option RunError := if c.halted then some .cancelled else c.trouble

/-- The turns of a crew that finishes each job before the walk goes on, over so many events. -/
def inOrder : Nat → List Turn
  | 0 => []
  | n + 1 => .walk :: (List.replicate Stage.waiting.rank (.job 0) ++ inOrder n)

end Crew
end ClassAtlas.Scan
