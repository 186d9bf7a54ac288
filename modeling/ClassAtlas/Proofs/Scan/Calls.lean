import ClassAtlas.Proofs.Scan.Jobs

/-! What units scanned one by one add to the totals.

A unit that is processed on its own either fails or comes to a document, which is offered to the
sink (`Scanner.offer`). The document is counted when it is made, before the sink has a say. So the
number of documents indexed is that of all that were offered, and those that a sink refused are
among them (`process_counts`): it is the number of those stored only as long as no sink refuses any,
although the call for a refused one returns an error. -/
namespace ClassAtlas.Scan
open Index (Document)

variable {σ : Type}

/-! ### Runs of calls -/

/-- A call for one unit. Each has the sink as it is by then, for a sink may come to refuse what it
took before. -/
structure Call (σ : Type) where
  sink : Sink σ
  unit : ClassUnit

/-- The document that a call offers to the sink, and whether the sink takes it. -/
def Scanner.offer (s : Scanner) (t : σ) (c : Call σ) : Option (Document × Bool) :=
  match (s.finish c.sink t c.unit).2 with
  | .stored d => some (d, true)
  | .refused d _ => some (d, false)
  | _ => none

/-- What a run of calls shows and leaves. -/
structure Record (σ : Type) where
  replies : List (Except ProcessError Unit)
  offers : List (Document × Bool)
  scanner : Scanner
  target : σ

namespace Record

/-- The record with a call in front. -/
def cons (reply : Except ProcessError Unit) (offered : Option (Document × Bool)) (r : Record σ) : Record σ :=
  { r with replies := reply :: r.replies, offers := offered.toList ++ r.offers }

/-- The documents that were taken. -/
def taken (r : Record σ) : List (Document × Bool) := r.offers.filter (·.2)

/-- The documents that were refused. -/
def refused (r : Record σ) : List (Document × Bool) := r.offers.filter (!·.2)

end Record

/-- Processes units one after the other. -/
def Scanner.processAll (s : Scanner) (t : σ) : List (Call σ) → Record σ
  | [] => ⟨[], [], s, t⟩
  | c :: rest =>
    let (reply, s', t') := s.process c.sink t c.unit
    (s'.processAll t' rest).cons reply (s.offer t c)

/-! ### One call -/

/-- The totals with one unit more, and so many documents and failures. -/
structure Stats.Adds (before after : Stats) (indexed failed : Nat) : Prop where
  units : after.units = before.units + 1
  indexed : after.indexed = before.indexed + indexed
  failed : after.failed = before.failed + failed

/-- The work on a unit has begun with these totals and this target, and has changed them by one unit and
by what its stage has entered. -/
structure Scanner.Entered (sink : Sink σ) (s : Scanner) (t : σ) (b : Bench σ) (stage : Stage) : Prop where
  begun : stage ≠ .waiting ∧ stage ≠ .dropped
  units : b.scanner.stats.units = s.stats.units + 1
  books : ∃ given : List Document, given.foldlM sink.put t = .ok b.target ∧
    b.tally given = Bench.tally [] ⟨s, t⟩ + stage.entered

theorem Scanner.Entered.next {sink : Sink σ} {s : Scanner} {t : σ} {u : ClassUnit} {b b' : Bench σ}
    {stage stage' : Stage} (h : s.Entered sink t b stage) (hnext : stage.Next sink false u b b' stage') :
    s.Entered sink t b' stage' where
  begun := by
    cases hnext with
    | start | drop => exact absurd rfl h.begun.1
    | rest => exact h.begun
    | _ => exact ⟨nofun, nofun⟩
  units := hnext.frame.2.trans h.units
  books := by
    obtain ⟨given, hfilled, htally⟩ := h.books
    obtain ⟨given', hfilled', htally'⟩ := hnext.books hfilled
    refine ⟨given', hfilled', ?_⟩
    rw [htally, add_right_comm] at htally'
    exact add_right_cancel htally'

theorem Scanner.finish_entered (s : Scanner) (sink : Sink σ) (t : σ) (u : ClassUnit) :
    s.Entered sink t (s.finish sink t u).1 (s.finish sink t u).2 := by
  have hstart : s.Entered sink t ⟨s.countUnit, t⟩ .begun := ⟨⟨nofun, nofun⟩, rfl, [], rfl, (add_zero _).symm⟩
  exact Stage.advance_induction (fun _ _ _ _ h hnext => h.next hnext) hstart _

/-- A unit on its own is worked on to the end. -/
theorem Scanner.finish_isOver (s : Scanner) (sink : Sink σ) (t : σ) (u : ClassUnit) :
    (s.finish sink t u).2.isOver = true :=
  Stage.rank_eq_zero.1 (Nat.le_zero.1 (Stage.rank_advance sink u Stage.begun.rank (⟨s.countUnit, t⟩, .begun)))

/-- What has been entered is one document handed over, counted or not, or one failure. -/
theorem Scanner.Entered.adds {sink : Sink σ} {s : Scanner} {t : σ} {b : Bench σ} {stage : Stage}
    (h : s.Entered sink t b stage) :
    s.stats.Adds b.scanner.stats stage.entered.2.2 stage.entered.2.1.card ∧
      ∃ given : List Document, given.foldlM sink.put t = .ok b.target ∧
        (given : Multiset Document) = stage.entered.1 := by
  obtain ⟨given, hfilled, htally⟩ := h.books
  obtain ⟨hgiven, hrest⟩ := Prod.mk.inj htally
  obtain ⟨herrors, hindexed⟩ := Prod.mk.inj hrest
  refine ⟨⟨h.units, hindexed, ?_⟩, given, hfilled, hgiven.trans (zero_add _)⟩
  have hcard := congrArg Multiset.card herrors
  rw [Multiset.card_add, Multiset.coe_card] at hcard
  show b.scanner.stats.counts.total = s.stats.counts.total + _
  rw [b.scanner.stats.complete, s.stats.complete]
  exact hcard

/-- What a call comes to: what it offers, its reply, and what it leaves. A document is counted
whether it is taken or not. -/
inductive Call.Comes (sink : Sink σ) (s : Scanner) (t : σ) :
    Option (Document × Bool) → Except ProcessError Unit → Scanner → σ → Prop
  | failed (e : UnitError) {s' : Scanner} (adds : s.stats.Adds s'.stats 0 1) :
    Comes sink s t none (.error (.unit e)) s' t
  | taken (d : Document) {s' : Scanner} {t' : σ} (hput : sink.put t d = .ok t') (adds : s.stats.Adds s'.stats 1 0) :
    Comes sink s t (some (d, true)) (.ok ()) s' t'
  | refused (d : Document) (reason : String) {s' : Scanner} (adds : s.stats.Adds s'.stats 1 0) :
    Comes sink s t (some (d, false)) (.error (.sink reason)) s' t

theorem Scanner.process_comes (s : Scanner) (t : σ) (c : Call σ) :
    ∃ reply s' t', s.process c.sink t c.unit = (reply, s', t') ∧
      Call.Comes c.sink s t (s.offer t c) reply s' t' := by
  have hover := s.finish_isOver c.sink t c.unit
  have hentered := s.finish_entered c.sink t c.unit
  obtain ⟨hadds, given, hfilled, hgiven⟩ := hentered.adds
  obtain ⟨b, stage, hend⟩ : ∃ b stage, s.finish c.sink t c.unit = (b, stage) := ⟨_, _, rfl⟩
  refine ⟨stage.reply, b.scanner, b.target, by rw [process, hend], ?_⟩
  rw [hend] at hover hentered hadds hfilled hgiven
  rw [offer, hend]
  cases stage with
  | stored d =>
    obtain rfl : given = [d] := Multiset.coe_eq_singleton.1 hgiven
    obtain ⟨target, hput, hrest⟩ := bind_eq_ok.1 hfilled
    obtain rfl := Except.ok.inj hrest
    exact .taken d hput hadds
  | refused d reason =>
    obtain rfl : given = [] := Multiset.coe_eq_zero _ |>.1 hgiven
    obtain rfl := Except.ok.inj hfilled
    exact .refused d reason hadds
  | failed e =>
    obtain rfl : given = [] := Multiset.coe_eq_zero _ |>.1 hgiven
    obtain rfl := Except.ok.inj hfilled
    exact .failed e hadds
  | dropped => exact absurd rfl hentered.begun.2
  | waiting | begun | missed | analyzed | ready => cases hover

/-! ### Counts -/

/-- The totals after a run of so many calls that began with the totals `before`. The replies tell what
became of each document; a unit that fails has none. -/
structure Record.Counts (before : Stats) (calls : Nat) (r : Record σ) : Prop where
  units : r.scanner.stats.units = before.units + calls
  indexed : r.scanner.stats.indexed = before.indexed + (r.taken.length + r.refused.length)
  failed : r.scanner.stats.failed = before.failed + r.replies.countP (· matches .error (.unit _))
  taken : r.taken.length = r.replies.countP (· matches .ok _)
  refused : r.refused.length = r.replies.countP (· matches .error (.sink _))

/-- One call in front of a run. -/
theorem Record.Counts.cons {sink : Sink σ} {s s' : Scanner} {t t' : σ} {offered : Option (Document × Bool)}
    {reply : Except ProcessError Unit} {calls : Nat} {r : Record σ} (hcomes : Call.Comes sink s t offered reply s' t')
    (h : r.Counts s'.stats calls) : (r.cons reply offered).Counts s.stats (calls + 1) := by
  obtain ⟨hunits, hindexed, hfailed, htaken, hrefused⟩ := h
  simp only [Record.taken, Record.refused] at hindexed htaken hrefused
  cases hcomes with
  | failed _ adds | taken _ _ adds | refused _ _ adds =>
    obtain ⟨hu, hi, hf⟩ := adds
    constructor <;> simp [Record.cons, Record.taken, Record.refused] <;> omega

theorem Scanner.processAll_counts (s : Scanner) (t : σ) (calls : List (Call σ)) :
    (s.processAll t calls).Counts s.stats calls.length := by
  induction calls generalizing s t with
  | nil => exact ⟨rfl, rfl, rfl, rfl, rfl⟩
  | cons c rest ih =>
    obtain ⟨reply, s', t', hprocess, hcomes⟩ := s.process_comes t c
    rw [processAll, hprocess]
    exact .cons hcomes (ih s' t')

/-- **Units are counted by calls, and documents when they are made.** A document that the sink refuses
is counted like one that it takes, so the documents counted are those taken exactly when no call
failed for the sink. -/
theorem process_counts (s : Scanner) (t : σ) (calls : List (Call σ)) :
    (s.processAll t calls).Counts s.stats calls.length ∧
      ((s.processAll t calls).scanner.stats.indexed = s.stats.indexed + (s.processAll t calls).taken.length ↔
        ∀ reason, .error (.sink reason) ∉ (s.processAll t calls).replies) := by
  have hcounts := s.processAll_counts t calls
  refine ⟨hcounts, ?_⟩
  have hnone : (s.processAll t calls).refused.length = 0 ↔
      ∀ reason, .error (.sink reason) ∉ (s.processAll t calls).replies := by
    rw [hcounts.refused, List.countP_eq_zero]
    constructor
    · intro h reason hmem
      exact h _ hmem rfl
    · intro h reply hmem hmatch
      split at hmatch
      · exact h _ hmem
      · cases hmatch
  rw [hcounts.indexed, ← hnone]
  omega

/-- Three units, and a sink that is full for the second of them. The third unit is cut short. -/
def sampleCalls : List (Call (List Document)) :=
  let roomy : Sink (List Document) := ⟨fun ds d => .ok (ds ++ [d])⟩
  let full : Sink (List Document) := ⟨fun _ _ => .error "disk full"⟩
  [⟨roomy, "A.class", .ok smallFile⟩, ⟨full, "b/A.class", .ok smallFile⟩,
    ⟨roomy, "C.class", .ok (smallFile.take 20)⟩]

theorem replies_sampleCalls :
    (Scanner.processAll ⟨⟨"/s?"⟩, .empty 1, .none⟩ [] sampleCalls).replies =
      [.ok (), .error (.sink "disk full"), .error (.unit ⟨"C.class",
        Sentinel.truncatedInput.saying "reading class info"⟩)] := by
  decide +kernel

/-- Of the two documents counted one was taken. -/
theorem process_counts_sampleCalls :
    let r := Scanner.processAll ⟨⟨"/s?"⟩, .empty 1, .none⟩ [] sampleCalls
    r.taken.length = 1 ∧ r.scanner.stats.units = 3 ∧ r.scanner.stats.indexed = 2 ∧ r.scanner.stats.failed = 1 := by
  obtain ⟨hcounts, -⟩ := process_counts ⟨⟨"/s?"⟩, .empty 1, .none⟩ [] sampleCalls
  obtain ⟨hunits, hindexed, hfailed, htaken, hrefused⟩ := hcounts
  rw [replies_sampleCalls] at hfailed htaken hrefused
  rw [htaken, hrefused] at hindexed
  exact ⟨htaken, hunits, hindexed, hfailed⟩

end ClassAtlas.Scan
