import ClassAtlas.Proofs.Scan.Jobs
import ClassAtlas.Scan.Crew
import Mathlib.Algebra.BigOperators.Group.List.Lemmas
import Mathlib.Tactic.Abel

/-! A walk and its jobs, whatever turns they take.

Through any turns the books tell what the walk has passed and how far the jobs have got (`Crew.Keeps`):
each unit passed is a job, each error and each document counted was entered by one event or one job, and the
target is what the documents handed over have made of it.

In a run that nobody cancels, into a sink that takes all it is given, nothing is dropped or refused
(`Crew.Calm`). When the walk and all jobs are over, each unit has settled, and the totals add up
(`Crew.Calm.addsUp`).

A run can always be brought to its end (`Crew.exists_isOver`), for every turn that is not idle leaves less
to do; and working off each job before the walk goes on does so (`Crew.isOver_inOrder`). -/
namespace ClassAtlas.Scan
open Xref
open Index (Document)

/-- The unit that a walk comes across. -/
def Event.unit? : Event → Option ClassUnit
  | unit u => some u
  | visit | unreadable .. => none

/-- The error that something unreadable makes. -/
def Event.error? : Event → Option UnitError
  | unreadable name error => some ⟨name, error⟩
  | visit | unit _ => none

/-- The documents among results. -/
def documentsIn (rs : List (Except UnitError Document)) : List Document := rs.filterMap Except.toOption

/-- The errors among results. -/
def errorsIn (rs : List (Except UnitError Document)) : List UnitError :=
  rs.filterMap fun r => match r with
    | .ok _ => none
    | .error e => some e

theorem mem_units {events : List Event} {u : ClassUnit} : u ∈ events.filterMap Event.unit? ↔ .unit u ∈ events := by
  rw [List.mem_filterMap]
  constructor
  · rintro ⟨e, he, heq⟩
    cases e with
    | unit v =>
      obtain rfl : v = u := by simpa [Event.unit?] using heq
      exact he
    | _ => cases heq
  · intro h
    exact ⟨_, h, rfl⟩

@[simp] theorem documentsIn_ok (d : Document) (rs : List (Except UnitError Document)) :
    documentsIn (.ok d :: rs) = d :: documentsIn rs := rfl

@[simp] theorem documentsIn_error (e : UnitError) (rs : List (Except UnitError Document)) :
    documentsIn (.error e :: rs) = documentsIn rs := rfl

@[simp] theorem errorsIn_ok (d : Document) (rs : List (Except UnitError Document)) :
    errorsIn (.ok d :: rs) = errorsIn rs := rfl

@[simp] theorem errorsIn_error (e : UnitError) (rs : List (Except UnitError Document)) :
    errorsIn (.error e :: rs) = e :: errorsIn rs := rfl

namespace Crew

variable {σ : Type} {sink : Sink σ} {t : σ} {links : Linker} {K : Set Bytes} {c : Crew σ}

/-! ### One turn -/

/-- What all turns keep, every run keeps. -/
theorem run_induction {P : Crew σ → Prop} {turns : List Turn}
    (hturn : ∀ c, P c → ∀ τ ∈ turns, P (c.turn sink τ)) (hc : P c) : P (c.run sink turns) := by
  induction turns generalizing c with
  | nil => exact hc
  | cons τ turns ih =>
    exact ih (fun c hc τ' hτ' => hturn c hc τ' (List.mem_cons_of_mem τ hτ')) (hturn c hc τ List.mem_cons_self)

theorem run_append (c : Crew σ) (turns more : List Turn) :
    c.run sink (turns ++ more) = (c.run sink turns).run sink more := List.foldl_append ..

/-- What the next step of the walk can do. -/
inductive Walks (c : Crew σ) : Crew σ → Prop
  | rest (h : c.ahead = []) : Walks c c
  | halt (hahead : c.ahead ≠ []) (h : c.isStopped = true) : Walks c c.halt
  | visit {rest : List Event} (hahead : c.ahead = .visit :: rest) : Walks c { c with ahead := rest }
  | unreadable {name : RawText} {error : Error} {rest : List Event} (hahead : c.ahead = .unreadable name error :: rest) :
    Walks c { c with bench := c.bench.fail ⟨name, error⟩, ahead := rest }
  | unit {u : ClassUnit} {rest : List Event} (hahead : c.ahead = .unit u :: rest) :
    Walks c { c with
      bench := { c.bench with scanner := c.bench.scanner.countUnit }
      ahead := rest
      jobs := ⟨u, .waiting⟩ :: c.jobs }

theorem walk_cases (c : Crew σ) : c.Walks c.walk := by
  unfold walk
  split
  · rename_i hahead
    exact .rest hahead
  · rename_i rest hahead
    cases hstopped : c.isStopped with
    | true => exact .halt (by simp [hahead]) hstopped
    | false => exact .visit hahead
  · rename_i name error rest hahead
    exact .unreadable hahead
  · rename_i u rest hahead
    cases hstopped : c.isStopped with
    | true => exact .halt (by simp [hahead]) hstopped
    | false => exact .unit hahead

/-- What work at a place can do: there is no job, or the job there goes on, the others left as they are. -/
theorem work_cases (sink : Sink σ) (c : Crew σ) (place : Nat) :
    (c.jobs[place]? = none ∧ c.work sink place = c) ∨
    ∃ pre j post b stage, c.jobs = pre ++ j :: post ∧ pre.length = place ∧
      j.stage.Next sink c.isStopped j.unit c.bench b stage ∧
      c.work sink place = { c with
        bench := b
        jobs := pre ++ ⟨j.unit, stage⟩ :: post
        trouble := c.trouble <|> Job.trouble? ⟨j.unit, stage⟩ } := by
  unfold work
  cases hj : c.jobs[place]? with
  | none => exact .inl ⟨rfl, rfl⟩
  | some j =>
    obtain ⟨hplace, hget⟩ := List.getElem?_eq_some_iff.1 hj
    let next : Job := ⟨j.unit, (j.stage.next sink c.isStopped j.unit c.bench).2⟩
    obtain ⟨pre, post, hjobs, hlen, hset⟩ : ∃ pre post, c.jobs = pre ++ c.jobs[place] :: post ∧
        pre.length = place ∧ c.jobs.set place next = pre ++ next :: post := List.exists_of_set hplace
    rw [hget] at hjobs
    exact .inr ⟨pre, j, post, _, _, hjobs, hlen, Stage.next_cases .., by simp only [← hset, next]⟩

/-! ### The books -/

/-- What the walk has entered in the books along some events. -/
def faults (passed : List Event) : Tally := (0, passed.filterMap Event.error?, 0)

/-- What some jobs have entered in the books. -/
def entered (jobs : List Job) : Tally := (jobs.map fun j => j.stage.entered).sum

@[simp] theorem entered_nil : entered [] = 0 := rfl

@[simp] theorem entered_cons (j : Job) (jobs : List Job) : entered (j :: jobs) = j.stage.entered + entered jobs := by
  simp [entered]

@[simp] theorem entered_append (jobs jobs' : List Job) : entered (jobs ++ jobs') = entered jobs + entered jobs' := by
  simp [entered]

/-- What the books tell of a bench and its jobs, when the walk has passed some events and some documents
were handed over. -/
structure Books (sink : Sink σ) (t : σ) (links : Linker) (K : Set Bytes) (passed : List Event)
    (given : List Document) (b : Bench σ) (jobs : List Job) : Prop where
  links_eq : b.scanner.links = links
  cache : b.scanner.cache.Backed links K
  units : (jobs.map Job.unit).reverse = passed.filterMap Event.unit?
  within : ∀ j ∈ jobs, j.unit.Within K
  sound : ∀ j ∈ jobs, j.stage.Sound links K j.unit
  counted : b.scanner.stats.units = jobs.length
  filled : given.foldlM sink.put t = .ok b.target
  tally : b.tally given = faults passed + entered jobs
  cached : b.scanner.stats.cached ≤ b.scanner.stats.indexed

namespace Books

variable {passed : List Event} {given : List Document} {b b' : Bench σ} {jobs pre post : List Job} {j : Job}
  {stage : Stage} {stopped : Bool}

/-- A job goes on. -/
theorem next (h : Books sink t links K passed given b (pre ++ j :: post))
    (hnext : j.stage.Next sink stopped j.unit b b' stage) :
    ∃ given', Books sink t links K passed given' b' (pre ++ ⟨j.unit, stage⟩ :: post) := by
  obtain ⟨rfl, hcache, hunits, hwithin, hsound, hcounted, hfilled, htally, hcached⟩ := h
  obtain ⟨hlinks, hsame⟩ := hnext.frame
  obtain ⟨hcache', hsound'⟩ := hnext.sound (hwithin j (by simp)) hcache (hsound j (by simp))
  obtain ⟨given', hfilled', hbooks⟩ := hnext.books hfilled
  simp only [List.forall_mem_append, List.forall_mem_cons] at hwithin hsound
  refine ⟨given', hlinks, hcache', by simpa using hunits, ?_, ?_, by simpa [hsame] using hcounted, hfilled', ?_,
    hnext.cached hcached⟩
  · simpa only [List.forall_mem_append, List.forall_mem_cons] using hwithin
  · simpa only [List.forall_mem_append, List.forall_mem_cons] using ⟨hsound.1, hsound', hsound.2.2⟩
  · rw [entered_append, entered_cons] at htally ⊢
    refine add_right_cancel (b := j.stage.entered) ?_
    rw [hbooks, htally]
    abel

theorem visit (h : Books sink t links K passed given b jobs) :
    Books sink t links K (passed ++ [.visit]) given b jobs where
  __ := h
  units := by simpa [Event.unit?, List.filterMap_cons] using h.units
  tally := by simpa [faults, Event.error?, List.filterMap_cons] using h.tally

theorem unreadable (h : Books sink t links K passed given b jobs) (name : RawText) (error : Error) :
    Books sink t links K (passed ++ [.unreadable name error]) given (b.fail ⟨name, error⟩) jobs where
  __ := h
  units := by simpa [Event.unit?, List.filterMap_cons] using h.units
  tally := by
    have hentered : (b.fail ⟨name, error⟩).tally given = b.tally given + (0, {⟨name, error⟩}, 0) := by
      simp [Bench.tally, Bench.fail, Scanner.fail, Stats.fail, ← Multiset.coe_add]
    have hfaults : faults (passed ++ [.unreadable name error]) = faults passed + (0, {⟨name, error⟩}, 0) := by
      simp [faults, Event.error?, ← Multiset.coe_add]
    rw [hentered, h.tally, hfaults]
    abel

/-- A unit is counted and becomes a job. -/
theorem unit (h : Books sink t links K passed given b jobs) {u : ClassUnit} (hu : u.Within K) :
    Books sink t links K (passed ++ [.unit u]) given { b with scanner := b.scanner.countUnit }
      (⟨u, .waiting⟩ :: jobs) where
  __ := h
  units := by simpa [Event.unit?, List.filterMap_cons] using h.units
  within := List.forall_mem_cons.2 ⟨hu, h.within⟩
  sound := List.forall_mem_cons.2 ⟨trivial, h.sound⟩
  counted := congrArg (· + 1) h.counted
  tally := by
    have hentered : Bench.tally given { b with scanner := b.scanner.countUnit } = b.tally given := rfl
    rw [hentered, h.tally]
    simp [faults, Event.error?, List.filterMap_cons, Stage.entered]

end Books

/-- What any turns keep: the books tell of the events passed, which are those not ahead. -/
def Keeps (sink : Sink σ) (t : σ) (links : Linker) (K : Set Bytes) (events : List Event) (c : Crew σ) : Prop :=
  ∃ passed given, Books sink t links K passed given c.bench c.jobs ∧ passed ++ c.ahead <+: events ∧
    (c.halted = false → passed ++ c.ahead = events)

section
variable {events : List Event}

theorem Keeps.work (h : c.Keeps sink t links K events) (place : Nat) :
    (c.work sink place).Keeps sink t links K events := by
  rcases work_cases sink c place with ⟨-, hsame⟩ | ⟨pre, j, post, b, stage, hjobs, -, hnext, hwork⟩
  · rwa [hsame]
  · obtain ⟨passed, given, hbooks, hahead⟩ := h
    rw [hjobs] at hbooks
    obtain ⟨given', hbooks'⟩ := hbooks.next hnext
    rw [hwork]
    exact ⟨passed, given', hbooks', hahead⟩

/-- The walk passes an event. -/
theorem Keeps.walk (h : c.Keeps sink t links K events) (hunits : ∀ u, .unit u ∈ events → u.Within K) :
    c.walk.Keeps sink t links K events := by
  obtain ⟨passed, given, hbooks, hfirst, hall⟩ := id h
  have hwalk := c.walk_cases
  generalize c.walk = c' at hwalk ⊢
  cases hwalk with
  | rest => exact h
  | halt =>
    exact ⟨passed, given, hbooks, by simpa [halt] using (List.prefix_append passed c.ahead).trans hfirst, nofun⟩
  | visit hahead =>
    rw [hahead, List.append_cons] at hfirst hall
    exact ⟨_, given, hbooks.visit, hfirst, hall⟩
  | unreadable hahead =>
    rw [hahead, List.append_cons] at hfirst hall
    exact ⟨_, given, hbooks.unreadable _ _, hfirst, hall⟩
  | @unit u rest hahead =>
    rw [hahead, List.append_cons] at hfirst hall
    have hu : u.Within K := hunits u (hfirst.subset (by simp))
    exact ⟨_, given, hbooks.unit hu, hfirst, hall⟩

theorem Keeps.turn (h : c.Keeps sink t links K events) (hunits : ∀ u, .unit u ∈ events → u.Within K) (τ : Turn) :
    (c.turn sink τ).Keeps sink t links K events := by
  cases τ with
  | walk => exact h.walk hunits
  | job place => exact h.work place
  | cancel => exact h

theorem start_keeps {s : Scanner} (hs : s.cache.Backed s.links K) (t : σ) (cancelled : Bool) (events : List Event) :
    (start s t cancelled events).Keeps sink t s.links K events :=
  ⟨[], [], ⟨rfl, hs, rfl, nofun, nofun, rfl, rfl, rfl, le_rfl⟩, List.prefix_rfl, fun _ => rfl⟩

/-- Whatever turns a run takes, the books tell of them. -/
theorem keeps_run {s : Scanner} (hs : s.cache.Backed s.links K) (hunits : ∀ u, .unit u ∈ events → u.Within K)
    (t : σ) (cancelled : Bool) (turns : List Turn) :
    ((start s t cancelled events).run sink turns).Keeps sink t s.links K events :=
  run_induction (fun _ hc τ _ => hc.turn hunits τ) (start_keeps hs t cancelled events)

end

/-! ### Runs that nothing stops -/

end Crew

/-- The sink refuses no such document, after any others of them. -/
def Sink.Takes (sink : Sink σ) (t : σ) (P : Document → Prop) : Prop :=
  ∀ given : List Document, (∀ d ∈ given, P d) → ∃ t', given.foldlM sink.put t = .ok t'

namespace Crew

variable {σ : Type} {sink : Sink σ} {t : σ} {links : Linker} {K : Set Bytes} {c : Crew σ} {events : List Event}

/-- Nothing has stopped the run. -/
structure Calm (c : Crew σ) : Prop where
  going : c.cancelled = false
  trouble : c.trouble = none
  walking : c.halted = false
  jobs : ∀ j ∈ c.jobs, j.trouble? = none

theorem Calm.isStopped (h : c.Calm) : c.isStopped = false := by simp [Crew.isStopped, h.going, h.trouble]

theorem exists_stored {jobs : List Job} {d : Document} (h : d ∈ (entered jobs).1) :
    ∃ j ∈ jobs, j.stage = .stored d := by
  induction jobs with
  | nil => simp at h
  | cons j jobs ih =>
    rw [entered_cons, Prod.fst_add, Multiset.mem_add] at h
    rcases h with h | h
    · refine ⟨j, List.mem_cons_self, ?_⟩
      cases hstage : j.stage <;> simp_all [Stage.entered]
    · obtain ⟨k, hk, hstored⟩ := ih h
      exact ⟨k, List.mem_cons_of_mem j hk, hstored⟩

/-- Each document handed over is one that a unit settled as. -/
theorem Books.given {passed : List Event} {given : List Document} {b : Bench σ} {jobs : List Job}
    (h : Books sink t links K passed given b jobs) {d : Document} (hd : d ∈ given) :
    ∃ j ∈ jobs, Settles links K j.unit (.ok d) := by
  have hsum : (given : Multiset Document) = (entered jobs).1 := by
    simpa [Bench.tally, faults] using congrArg Prod.fst h.tally
  have hmem : d ∈ (entered jobs).1 := hsum ▸ Multiset.mem_coe.2 hd
  obtain ⟨j, hj, hstored⟩ := exists_stored hmem
  have hsound := h.sound j hj
  rw [hstored] at hsound
  exact ⟨j, hj, hsound⟩

theorem Calm.walk (h : c.Calm) : c.walk.Calm := by
  have hwalk := c.walk_cases
  generalize c.walk = c' at hwalk ⊢
  cases hwalk with
  | rest => exact h
  | halt _ hstopped => simp [h.isStopped] at hstopped
  | visit | unreadable => exact ⟨h.going, h.trouble, h.walking, h.jobs⟩
  | unit => exact ⟨h.going, h.trouble, h.walking, List.forall_mem_cons.2 ⟨rfl, h.jobs⟩⟩

/-- A job that goes on is neither dropped nor refused. -/
theorem Calm.work (h : c.Calm) {P : Document → Prop} (hkeeps : c.Keeps sink t links K events)
    (hsink : sink.Takes t P) (hP : ∀ u, .unit u ∈ events → ∀ d, Settles links K u (.ok d) → P d) (place : Nat) :
    (c.work sink place).Calm := by
  rcases work_cases sink c place with ⟨-, hsame⟩ | ⟨pre, j, post, b, stage, hjobs, -, hnext, hwork⟩
  · rwa [hsame]
  · obtain ⟨passed, given, hbooks, hfirst, -⟩ := hkeeps
    have hP' : ∀ k ∈ c.jobs, ∀ d, Settles links K k.unit (.ok d) → P d := by
      intro k hk d hd
      have hpassed : k.unit ∈ passed.filterMap Event.unit? := by
        rw [← hbooks.units]
        exact List.mem_reverse.2 (List.mem_map_of_mem hk)
      exact hP _ (hfirst.subset (List.mem_append_left _ (mem_units.1 hpassed))) d hd
    have hj : j ∈ c.jobs := by simp [hjobs]
    have hfine : Job.trouble? ⟨j.unit, stage⟩ = none := by
      have hbefore := h.jobs j hj
      have hsound := hbooks.sound j hj
      generalize hold : j.stage = old at hnext hsound
      cases hnext with
      | drop hstopped => simp [h.isStopped] at hstopped
      | @refuse d reason hput =>
        obtain ⟨t', ht'⟩ := hsink (given ++ [d]) fun d' hd' => by
          rcases List.mem_append.1 hd' with hd' | hd'
          · obtain ⟨k, hk, hsettles⟩ := hbooks.given hd'
            exact hP' k hk d' hsettles
          · obtain rfl := List.mem_singleton.1 hd'
            exact hP' j hj _ hsound
        rw [List.foldlM_append, hbooks.filled] at ht'
        have hput' : sink.put c.bench.target d >>= pure = .ok t' := ht'
        rw [hput] at hput'
        cases hput'
      | rest => rwa [Job.trouble?, ← hold]
      | _ => rfl
    have hall := h.jobs
    rw [hjobs] at hall
    simp only [List.forall_mem_append, List.forall_mem_cons] at hall
    rw [hwork]
    refine ⟨h.going, by simp [h.trouble, hfine], h.walking, ?_⟩
    simpa only [List.forall_mem_append, List.forall_mem_cons] using ⟨hall.1, hfine, hall.2.2⟩

theorem Calm.turn (h : c.Calm) {P : Document → Prop} (hkeeps : c.Keeps sink t links K events)
    (hsink : sink.Takes t P) (hP : ∀ u, .unit u ∈ events → ∀ d, Settles links K u (.ok d) → P d) {τ : Turn}
    (hτ : τ ≠ .cancel) : (c.turn sink τ).Calm := by
  cases τ with
  | walk => exact h.walk
  | job place => exact h.work hkeeps hsink hP place
  | cancel => exact absurd rfl hτ

/-- Nothing stops a run that nobody cancels, into a sink that takes what its units settle as. -/
theorem calm_run {s : Scanner} (hs : s.cache.Backed s.links K) (hunits : ∀ u, .unit u ∈ events → u.Within K)
    {P : Document → Prop} (hsink : sink.Takes t P)
    (hP : ∀ u, .unit u ∈ events → ∀ d, Settles s.links K u (.ok d) → P d) {turns : List Turn}
    (hturns : .cancel ∉ turns) : ((start s t false events).run sink turns).Calm := by
  have hboth : ((start s t false events).run sink turns).Keeps sink t s.links K events ∧
      ((start s t false events).run sink turns).Calm := by
    refine run_induction (P := fun c => c.Keeps sink t s.links K events ∧ c.Calm) (fun c hc τ hτ => ?_)
      ⟨start_keeps hs t false events, rfl, rfl, rfl, nofun⟩
    refine ⟨hc.1.turn hunits τ, hc.2.turn hc.1 hsink hP ?_⟩
    rintro rfl
    exact hturns hτ
  exact hboth.2

/-! ### Runs that are over -/

/-- Jobs that are over and not in trouble are units that have settled. -/
theorem exists_results {jobs : List Job} (hover : ∀ j ∈ jobs, j.stage.isOver = true)
    (hfine : ∀ j ∈ jobs, j.trouble? = none) (hsound : ∀ j ∈ jobs, j.stage.Sound links K j.unit) :
    ∃ rs, List.Forall₂ (Settles links K) (jobs.map Job.unit) rs ∧
      entered jobs = (↑(documentsIn rs), ↑(errorsIn rs), (documentsIn rs).length) := by
  induction jobs with
  | nil => exact ⟨[], .nil, rfl⟩
  | cons j jobs ih =>
    simp only [List.forall_mem_cons] at hover hfine hsound
    obtain ⟨rs, hrs, hentered⟩ := ih hover.2 hfine.2 hsound.2
    obtain ⟨u, stage⟩ := j
    rw [entered_cons, hentered]
    cases stage with
    | stored d => exact ⟨.ok d :: rs, .cons hsound.1 hrs, by simp [Stage.entered, add_comm]⟩
    | failed e => exact ⟨.error e :: rs, .cons hsound.1 hrs, by simp [Stage.entered]⟩
    | refused => cases hfine.1
    | dropped => cases hfine.1
    | _ => cases hover.1

end Crew

/-- Every error is of one kind. -/
theorem Stats.failed_eq (s : Stats) : s.failed = (Kind.all.map s.failures).sum := by
  have hcounted : Kind.all.map s.failures = Kind.all.map fun k => s.errors.countP (·.kind == k) :=
    List.map_congr_left fun k _ => s.counted k
  rw [hcounted, failed, s.complete]
  induction s.errors with
  | nil => rfl
  | cons e rest ih =>
    rw [List.length_cons, ih]
    cases hk : e.kind <;> simp [Kind.all, hk] <;> omega

theorem eq_map_of_forall₂ {α β : Type} {R : α → β → Prop} {f : α → β} {xs : List α} {ys : List β}
    (h : List.Forall₂ R xs ys) (hf : ∀ x ∈ xs, ∀ y, R x y → y = f x) : ys = xs.map f := by
  induction h with
  | nil => rfl
  | @cons x y xs ys hxy _ ih =>
    obtain ⟨hx, hxs⟩ := List.forall_mem_cons.1 hf
    rw [List.map_cons, hx y hxy, ih hxs]

/-- The totals of a run, its errors and what it made of a target are those of some units that settled so and
of some things that could not be read. -/
structure AddsUp (sink : Sink σ) (links : Linker) (K : Set Bytes) (us : List ClassUnit) (unread : List UnitError)
    (rs : List (Except UnitError Document)) (t : σ) (stats : Stats) (target : σ) : Prop where
  settled : List.Forall₂ (Settles links K) us rs
  analyzed : List.Forall₂ (fun u r => ∀ d, u.fresh links = .ok d → ∃ d', r = .ok d') us rs
  fresh : Set.InjOn Digest.sha256 K → rs = us.map (·.fresh links)
  units : stats.units = us.length
  given : ∃ given : List Document, given.Perm (documentsIn rs) ∧ given.foldlM sink.put t = .ok target
  indexed : stats.indexed = (documentsIn rs).length
  errors : stats.errors.Perm (unread ++ errorsIn rs)
  failures : ∀ k, stats.failures k = stats.errors.countP (·.kind == k)
  failed : stats.failed = (Kind.all.map stats.failures).sum
  cached : stats.cached ≤ stats.indexed

namespace Crew

variable {σ : Type} {sink : Sink σ} {t : σ} {links : Linker} {K : Set Bytes} {c : Crew σ} {events : List Event}

/-- **When the walk and all jobs are over, the totals add up.** -/
theorem Calm.addsUp (h : c.Calm) (hkeeps : c.Keeps sink t links K events) (hover : c.IsOver) :
    c.error? = none ∧ ∃ rs, AddsUp sink links K (events.filterMap Event.unit?) (events.filterMap Event.error?) rs t
      c.bench.scanner.stats c.bench.target := by
  obtain ⟨passed, given, hbooks, -, hall⟩ := hkeeps
  have hpassed : passed = events := by simpa [hover.1] using hall h.walking
  subst hpassed
  obtain ⟨rs, hrs, hentered⟩ := exists_results hover.2 h.jobs hbooks.sound
  have htally := hbooks.tally
  rw [hentered, Bench.tally, faults, Prod.mk_add_mk, Prod.mk_add_mk, zero_add, zero_add] at htally
  obtain ⟨hgiven, hrest⟩ := Prod.mk.inj htally
  obtain ⟨herrors, hindexed⟩ := Prod.mk.inj hrest
  have hsettled : List.Forall₂ (Settles links K) (passed.filterMap Event.unit?) rs.reverse := by
    rw [← hbooks.units]
    exact List.forall₂_reverse_iff.2 hrs
  have hwithin : ∀ u ∈ passed.filterMap Event.unit?, u.Within K := by
    rw [← hbooks.units]
    simpa using hbooks.within
  have hdocuments : documentsIn rs.reverse = (documentsIn rs).reverse := List.filterMap_reverse ..
  have herrorsIn : errorsIn rs.reverse = (errorsIn rs).reverse := List.filterMap_reverse ..
  refine ⟨by simp [error?, h.walking, h.trouble], rs.reverse, ?_⟩
  exact {
    settled := hsettled
    analyzed := hsettled.imp fun _ _ hr _ hd => hr.isOk hd
    fresh := fun hK => eq_map_of_forall₂ hsettled fun u hu r hr => hr.eq_fresh hK (hwithin u hu)
    units := by
      rw [hbooks.counted, ← hbooks.units, List.length_reverse, List.length_map]
    given := ⟨given, hdocuments ▸ (Multiset.coe_eq_coe.1 hgiven).trans (List.reverse_perm _).symm, hbooks.filled⟩
    indexed := by rw [hdocuments, List.length_reverse, hindexed]
    errors := by
      rw [herrorsIn]
      exact (Multiset.coe_eq_coe.1 herrors).trans ((List.reverse_perm _).symm.append_left _)
    failures := Stats.counted _
    failed := Stats.failed_eq _
    cached := hbooks.cached }

/-! ### Bringing a run to its end -/

/-- An upper bound for the turns that are still needed. -/
def rank (c : Crew σ) : Nat :=
  (Stage.waiting.rank + 1) * c.ahead.length + (c.jobs.map fun j => j.stage.rank).sum

theorem rank_walk (h : c.ahead ≠ []) : c.walk.rank < c.rank := by
  have hwalk := c.walk_cases
  generalize c.walk = c' at hwalk ⊢
  cases hwalk with
  | rest hnone => exact absurd hnone h
  | halt =>
    have hlength := List.length_pos_iff.2 h
    simp only [rank, halt, List.length_nil, Stage.rank]
    omega
  | visit hahead | unreadable hahead => simp [rank, hahead, Stage.rank]
  | unit hahead =>
    simp [rank, hahead, Stage.rank]
    omega

theorem rank_work {place : Nat} {j : Job} (hj : c.jobs[place]? = some j) (hgoing : j.stage.isOver = false) :
    (c.work sink place).rank < c.rank := by
  rcases work_cases sink c place with ⟨hnone, -⟩ | ⟨pre, k, post, b, stage, hjobs, rfl, hnext, hwork⟩
  · cases hnone.symm.trans hj
  · obtain rfl : k = j := by simpa [hjobs] using hj
    have hpos : 0 < k.stage.rank := Nat.pos_of_ne_zero fun h => by simp [Stage.rank_eq_zero.1 h] at hgoing
    have hdrop := hnext.rank
    rw [hwork]
    simp only [rank, hjobs, List.map_append, List.map_cons, List.sum_append, List.sum_cons]
    omega

/-- **Any run can be brought to its end** without anyone cancelling it. -/
theorem exists_isOver (sink : Sink σ) (c : Crew σ) : ∃ more, .cancel ∉ more ∧ (c.run sink more).IsOver := by
  induction hn : c.rank using Nat.strong_induction_on generalizing c with
  | _ n ih =>
    subst hn
    have hgo : ∀ τ : Turn, τ ≠ .cancel → (c.turn sink τ).rank < c.rank →
        ∃ more, .cancel ∉ more ∧ (c.run sink more).IsOver := by
      intro τ hτ hlt
      obtain ⟨more, hmore, hover⟩ := ih _ hlt _ rfl
      exact ⟨τ :: more, by simp [hτ.symm, hmore], hover⟩
    by_cases hahead : c.ahead = []
    · by_cases hjobs : ∀ j ∈ c.jobs, j.stage.isOver = true
      · exact ⟨[], by simp, hahead, hjobs⟩
      · obtain ⟨j, hj, hgoing⟩ : ∃ j ∈ c.jobs, j.stage.isOver = false := by simpa using hjobs
        obtain ⟨place, hplace⟩ := List.mem_iff_getElem?.1 hj
        exact hgo (.job place) nofun (rank_work hplace hgoing)
    · exact hgo .walk nofun (rank_walk hahead)

/-- A job worked on for all that it needs, after all others, leaves no job to work on. -/
theorem isOver_first {n : Nat} (hhead : ∀ j ∈ c.jobs.head?, j.stage.rank ≤ n)
    (htail : ∀ j ∈ c.jobs.tail, j.stage.isOver = true) :
    (c.run sink (List.replicate n (.job 0))).ahead = c.ahead ∧
      ∀ j ∈ (c.run sink (List.replicate n (.job 0))).jobs, j.stage.isOver = true := by
  induction n generalizing c with
  | zero =>
    refine ⟨rfl, fun j hj => ?_⟩
    replace hj : j ∈ c.jobs := hj
    cases hjobs : c.jobs with
    | nil => simp [hjobs] at hj
    | cons first rest =>
      rw [hjobs] at hj hhead htail
      rcases List.mem_cons.1 hj with rfl | hj
      · exact Stage.rank_eq_zero.1 (Nat.le_zero.1 (hhead j rfl))
      · exact htail j hj
  | succ n ih =>
    rw [List.replicate_succ]
    rcases work_cases sink c 0 with ⟨hnone, hsame⟩ | ⟨pre, j, post, b, stage, hjobs, hpre, hnext, hwork⟩
    · have hjobs : c.jobs = [] := by simpa using hnone
      have hrest := ih (c := c) (by simp [hjobs]) (by simp [hjobs])
      rwa [run, List.foldl_cons, turn, hsame]
    · obtain rfl := List.length_eq_zero_iff.1 hpre
      rw [List.nil_append] at hjobs hwork
      have hdrop := hnext.rank
      have hfirst := hhead j (by simp [hjobs])
      have hrest := ih (c := c.work sink 0) (by simp [hwork]; omega) (by simpa [hwork, hjobs] using htail)
      rw [hwork] at hrest
      rwa [run, List.foldl_cons, turn, hwork]

theorem jobs_walk (c : Crew σ) : c.walk.ahead.length ≤ c.ahead.length - 1 ∧
    (c.walk.jobs = c.jobs ∨ ∃ u, c.walk.jobs = ⟨u, .waiting⟩ :: c.jobs) := by
  have hwalk := c.walk_cases
  generalize c.walk = c' at hwalk ⊢
  cases hwalk with
  | rest hnone => exact ⟨by simp [hnone], .inl rfl⟩
  | halt => exact ⟨Nat.zero_le _, .inl rfl⟩
  | visit hahead | unreadable hahead => exact ⟨by simp [hahead], .inl rfl⟩
  | @unit u rest hahead => exact ⟨by simp [hahead], .inr ⟨u, rfl⟩⟩

/-- Finishing each job before the walk goes on brings a run to its end. -/
theorem isOver_inOrder {n : Nat} (hn : c.ahead.length ≤ n) (hjobs : ∀ j ∈ c.jobs, j.stage.isOver = true) :
    (c.run sink (inOrder n)).IsOver := by
  induction n generalizing c with
  | zero => exact ⟨List.length_eq_zero_iff.1 (Nat.le_zero.1 hn), hjobs⟩
  | succ n ih =>
    show (c.walk.run sink (List.replicate Stage.waiting.rank (.job 0) ++ inOrder n)).IsOver
    obtain ⟨hahead, hnew⟩ := jobs_walk c
    have hfirst : (∀ j ∈ c.walk.jobs.head?, j.stage.rank ≤ Stage.waiting.rank) ∧
        ∀ j ∈ c.walk.jobs.tail, j.stage.isOver = true := by
      rcases hnew with hsame | ⟨u, hnew⟩
      · rw [hsame]
        refine ⟨fun j hj => ?_, fun j hj => hjobs j (List.mem_of_mem_tail hj)⟩
        rw [Stage.rank_eq_zero.2 (hjobs j (List.mem_of_mem_head? hj))]
        exact Nat.zero_le _
      · rw [hnew]
        exact ⟨by simp, hjobs⟩
    rw [run_append]
    obtain ⟨hsame, hover⟩ := isOver_first hfirst.1 hfirst.2
    exact ih (by rw [hsame]; omega) hover

theorem cancel_not_mem_inOrder (n : Nat) : .cancel ∉ inOrder n := by
  induction n with
  | zero => simp [inOrder]
  | succ n ih => simp [inOrder, ih]

end Crew

/-! ### Scanners with a past -/

/-- A scanner with a cache of the given size that has worked on some units, one by one or in runs that were
left off anywhere. -/
inductive Scanner.LeftBy (links : Linker) (capacity : Int) : List ClassUnit → Scanner → Prop
  | new {s : Scanner} (h : create? links capacity = some s) : LeftBy links capacity [] s
  | process {earlier : List ClassUnit} {s : Scanner} {σ : Type} (sink : Sink σ) (t : σ) (u : ClassUnit)
      (h : LeftBy links capacity earlier s) : LeftBy links capacity (earlier ++ [u]) (s.process sink t u).2.1
  | run {earlier : List ClassUnit} {s : Scanner} {σ : Type} (sink : Sink σ) (t : σ) (cancelled : Bool)
      (events : List Event) (turns : List Turn) (h : LeftBy links capacity earlier s) :
      LeftBy links capacity (earlier ++ events.filterMap Event.unit?)
        ((Crew.start s t cancelled events).run sink turns).bench.scanner

/-- All that such a scanner's cache has are analyses of what it has worked on. -/
theorem Scanner.LeftBy.backed {links : Linker} {capacity : Int} {earlier : List ClassUnit} {s : Scanner}
    (h : LeftBy links capacity earlier s) : s.links = links ∧ s.cache.Backed links (contents earlier) := by
  induction h with
  | new h =>
    unfold create? at h
    split at h
    · cases h
    · obtain rfl := Option.some.inj h
      exact ⟨rfl, fun digest a hmem => by cases hmem⟩
  | @process earlier s σ sink t u h ih =>
    obtain ⟨rfl, hs⟩ := ih
    have hmono : contents earlier ⊆ contents (earlier ++ [u]) := by
      rw [contents_append]
      exact Set.subset_union_left
    have hu : u.Within (contents (earlier ++ [u])) := within_contents (by simp)
    have hstart : Stage.Sound s.links (contents (earlier ++ [u])) u .begun := trivial
    have hboth : (s.finish sink t u).1.scanner.links = s.links ∧
        (s.finish sink t u).1.scanner.cache.Backed s.links (contents (earlier ++ [u])) ∧
        (s.finish sink t u).2.Sound s.links (contents (earlier ++ [u])) u := by
      refine Stage.advance_induction (P := fun b stage => b.scanner.links = s.links ∧
        b.scanner.cache.Backed s.links (contents (earlier ++ [u])) ∧
        stage.Sound s.links (contents (earlier ++ [u])) u) ?_ (b := ⟨s.countUnit, t⟩)
        ⟨rfl, hs.mono hmono, hstart⟩ _
      rintro b stage b' stage' ⟨hlinks, hcache, hsound⟩ hnext
      rw [← hlinks] at hcache hsound ⊢
      exact ⟨hnext.frame.1, hnext.sound hu hcache hsound⟩
    exact ⟨hboth.1, hboth.2.1⟩
  | @run earlier s σ sink t cancelled events turns h ih =>
    obtain ⟨rfl, hs⟩ := ih
    have hmono : contents earlier ⊆ contents (earlier ++ events.filterMap Event.unit?) := by
      rw [contents_append]
      exact Set.subset_union_left
    have hkeeps : ((Crew.start s t cancelled events).run sink turns).Keeps sink t s.links
        (contents (earlier ++ events.filterMap Event.unit?)) events :=
      Crew.keeps_run (hs.mono hmono)
        (fun u hu => within_contents (List.mem_append_right earlier (mem_units.2 hu))) t cancelled turns
    obtain ⟨passed, given, hbooks, -⟩ := hkeeps
    exact ⟨hbooks.links_eq, hbooks.cache⟩

end ClassAtlas.Scan
