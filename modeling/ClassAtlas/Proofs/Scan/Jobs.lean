import ClassAtlas.Proofs.Success
import ClassAtlas.Scan.Job
import Mathlib.Algebra.Group.Prod
import Mathlib.Algebra.GroupWithZero.Nat
import Mathlib.Algebra.Order.Group.Multiset
import Mathlib.Data.Set.Function

/-! What the work on a unit comes to.

A unit *settles* as a document or as an error (`Settles`). It may settle as the analysis of other contents
with the same digest, if the cache has one; where no two contents have the same digest, it settles as it
would without a cache (`Settles.eq_fresh`).

What the next stage can do is said once (`Stage.Next`), and from it what every stage keeps: the cache
has analyses of contents that came up and nothing else (`Cache.Backed`), a stage knows no more than how its
unit settles (`Stage.Sound`), and the books change by what the stage enters (`Stage.Next.books`). -/
namespace ClassAtlas.Scan
open Xref
open Index (Document)

/-! ### Units on their own -/

/-- The document of a unit, or why it has none, without a cache. -/
def ClassUnit.fresh (links : Linker) (u : ClassUnit) : Except UnitError Document :=
  match u.bytes with
  | .error fault => .error ⟨u.name, fault.error⟩
  | .ok bytes =>
    match analyzeBytes links bytes with
    | .ok a => .ok (.ofAnalysis u.name (Digest.sha256 bytes).hex a)
    | .error error => .error ⟨u.name, error⟩

/-- The contents of the unit, if it could be read, are among these. -/
def ClassUnit.Within (K : Set Bytes) (u : ClassUnit) : Prop := ∀ bytes, u.bytes = .ok bytes → bytes ∈ K

/-- The contents of the units that could be read. -/
def contents (us : List ClassUnit) : Set Bytes := {bytes | ∃ u ∈ us, u.bytes = .ok bytes}

theorem within_contents {us : List ClassUnit} {u : ClassUnit} (hu : u ∈ us) : u.Within (contents us) :=
  fun _ hbytes => ⟨u, hu, hbytes⟩

theorem contents_append (us us' : List ClassUnit) : contents (us ++ us') = contents us ∪ contents us' := by
  ext bytes
  simp [contents, or_and_right, exists_or]

/-- The document of a unit or why it has none, when analyses of these contents may be remembered. -/
inductive Settles (links : Linker) (K : Set Bytes) (u : ClassUnit) : Except UnitError Document → Prop
  | unread {fault : PathFault} (hu : u.bytes = .error fault) : Settles links K u (.error ⟨u.name, fault.error⟩)
  | rejected {bytes : Bytes} {error : Error} (hu : u.bytes = .ok bytes)
      (ha : analyzeBytes links bytes = .error error) : Settles links K u (.error ⟨u.name, error⟩)
  | analyzed {bytes same : Bytes} {a : Analysis} (hu : u.bytes = .ok bytes) (hsame : same ∈ K)
      (hdigest : Digest.sha256 same = Digest.sha256 bytes) (ha : analyzeBytes links same = .ok a) :
      Settles links K u (.ok (.ofAnalysis u.name (Digest.sha256 bytes).hex a))

section
variable {links : Linker} {K : Set Bytes} {u : ClassUnit} {r : Except UnitError Document}

theorem ClassUnit.fresh_of_ok {bytes : Bytes} {a : Analysis} (hu : u.bytes = .ok bytes)
    (ha : analyzeBytes links bytes = .ok a) :
    u.fresh links = .ok (.ofAnalysis u.name (Digest.sha256 bytes).hex a) := by
  simp [fresh, hu, ha]

/-- Where digests differ, a unit settles as it would without a cache. -/
theorem Settles.eq_fresh (h : Settles links K u r) (hK : Set.InjOn Digest.sha256 K) (hu : u.Within K) :
    r = u.fresh links := by
  cases h with
  | unread h => simp [ClassUnit.fresh, h]
  | rejected h ha => simp [ClassUnit.fresh, h, ha]
  | analyzed h hsame hdigest ha =>
    obtain rfl := hK hsame (hu _ h) hdigest
    exact (ClassUnit.fresh_of_ok h ha).symm

/-- A unit that can be analyzed settles as a document. -/
theorem Settles.isOk (h : Settles links K u r) {d : Document} (hfresh : u.fresh links = .ok d) :
    ∃ d', r = .ok d' := by
  cases h with
  | unread h => simp [ClassUnit.fresh, h] at hfresh
  | rejected h ha => simp [ClassUnit.fresh, h, ha] at hfresh
  | analyzed h hsame hdigest ha => exact ⟨_, rfl⟩

/-- Documents go by the names of their units. -/
theorem Settles.path {d : Document} (h : Settles links K u (.ok d)) : d.path = u.name := by
  cases h
  rfl

end

/-! ### The cache -/

namespace Cache

variable {α : Type} {c : Cache α} {key k : String} {a b : α}

theorem mem_entries_of_get? (h : (c.get? key).1 = some a) : (key, a) ∈ c.entries := by
  unfold get? at h
  cases hfound : c.entries.lookup key with
  | none => simp [hfound] at h
  | some b =>
    obtain rfl : b = a := by simpa [hfound] using h
    obtain ⟨before, later, heq, _⟩ := List.lookup_eq_some_iff.1 hfound
    simp [heq]

/-- Looking a key up brings nothing new. -/
theorem mem_get? (h : (k, b) ∈ (c.get? key).2.entries) : (k, b) ∈ c.entries := by
  cases hfound : c.entries.lookup key with
  | none => simpa [get?, hfound] using h
  | some a =>
    have hmem : (key, a) ∈ c.entries := mem_entries_of_get? (by simp [get?, hfound])
    simp only [get?, hfound, List.mem_cons, without] at h
    rcases h with h | h
    · exact h ▸ hmem
    · exact List.mem_of_mem_filter h

theorem mem_add (h : (k, b) ∈ (c.add key a).entries) : (k, b) = (key, a) ∨ (k, b) ∈ c.entries := by
  rcases List.mem_cons.1 (List.mem_of_mem_take h) with h | h
  · exact .inl h
  · exact .inr (List.mem_of_mem_filter h)

end Cache

theorem hexDigit_inj {m n : Nat} (hm : m < 16) (hn : n < 16) (h : Bytes.hexDigit m = Bytes.hexDigit n) :
    m = n := by
  have hall : ∀ m n : Fin 16, Bytes.hexDigit m = Bytes.hexDigit n → m = n := by decide
  exact congrArg Fin.val (hall ⟨m, hm⟩ ⟨n, hn⟩ h)

theorem hex_injective : Function.Injective Bytes.hex := by
  intro as bs h
  have hlist := String.ofList_injective h
  induction as generalizing bs with
  | nil => cases bs <;> simp_all
  | cons a as ih =>
    cases bs with
    | nil => simp at hlist
    | cons b bs =>
      simp only [List.flatMap_cons, List.cons_append, List.nil_append, List.cons.injEq] at hlist
      obtain ⟨hhigh, hlow, hrest⟩ := hlist
      have ha := a.toNat_lt
      have hb := b.toNat_lt
      have hdiv := hexDigit_inj (by omega) (by omega) hhigh
      have hmod := hexDigit_inj (by omega) (by omega) hlow
      have hab : a = b := UInt8.toNat_inj.1 (by omega)
      rw [hab, ih (congrArg String.ofList hrest) hrest]

/-- Whatever the cache has is the analysis of some of these contents, under their digest. -/
def Cache.Backed (links : Linker) (K : Set Bytes) (c : Cache Analysis) : Prop :=
  ∀ digest a, (digest, a) ∈ c.entries →
    ∃ bytes ∈ K, (Digest.sha256 bytes).hex = digest ∧ analyzeBytes links bytes = .ok a

namespace Cache.Backed

variable {links : Linker} {K K' : Set Bytes} {c : Cache Analysis}

theorem mono (h : c.Backed links K) (hK : K ⊆ K') : c.Backed links K' := by
  intro digest a hmem
  obtain ⟨bytes, hbytes, hrest⟩ := h digest a hmem
  exact ⟨bytes, hK hbytes, hrest⟩

theorem get? (h : c.Backed links K) (key : String) : (c.get? key).2.Backed links K :=
  fun digest a hmem => h digest a (Cache.mem_get? hmem)

theorem add (h : c.Backed links K) {bytes : Bytes} (hbytes : bytes ∈ K) {a : Analysis}
    (ha : analyzeBytes links bytes = .ok a) : (c.add (Digest.sha256 bytes).hex a).Backed links K := by
  intro digest a' hmem
  rcases Cache.mem_add hmem with heq | hmem
  · obtain ⟨rfl, rfl⟩ := Prod.mk.inj heq
    exact ⟨bytes, hbytes, rfl, ha⟩
  · exact h digest a' hmem

end Cache.Backed

/-! ### The next stage -/

namespace Stage

/-- What the next stage of the work on a unit can do. -/
inductive Next (sink : Sink σ) (stopped : Bool) (u : ClassUnit) (b : Bench σ) : Stage → Bench σ → Stage → Prop
  | start (h : stopped = false) : Next sink stopped u b waiting b begun
  | drop (h : stopped = true) : Next sink stopped u b waiting b dropped
  | unread {fault : PathFault} (hu : u.bytes = .error fault) :
    Next sink stopped u b begun (b.fail ⟨u.name, fault.error⟩) (failed ⟨u.name, fault.error⟩)
  | hit {bytes : Bytes} {a : Analysis} {cache : Cache Analysis} (hu : u.bytes = .ok bytes)
      (hget : b.scanner.cache.get? (Digest.sha256 bytes).hex = (some a, cache)) :
    Next sink stopped u b begun (b.setCache cache) (analyzed bytes a true)
  | miss {bytes : Bytes} (hu : u.bytes = .ok bytes) : Next sink stopped u b begun b (missed bytes)
  | reject {bytes : Bytes} {error : Error} (ha : analyzeBytes b.scanner.links bytes = .error error) :
    Next sink stopped u b (missed bytes) (b.fail ⟨u.name, error⟩) (failed ⟨u.name, error⟩)
  | remember {bytes : Bytes} {a : Analysis} (ha : analyzeBytes b.scanner.links bytes = .ok a) :
    Next sink stopped u b (missed bytes) (b.setCache (b.scanner.cache.add (Digest.sha256 bytes).hex a))
      (analyzed bytes a false)
  | make (bytes : Bytes) (a : Analysis) (fromCache : Bool) :
    Next sink stopped u b (analyzed bytes a fromCache) { b with scanner := b.scanner.made fromCache }
      (ready (.ofAnalysis u.name (Digest.sha256 bytes).hex a))
  | store {d : Document} {target : σ} (hput : sink.put b.target d = .ok target) :
    Next sink stopped u b (ready d) { b with target } (stored d)
  | refuse {d : Document} {reason : String} (hput : sink.put b.target d = .error reason) :
    Next sink stopped u b (ready d) b (refused d reason)
  | rest {stage : Stage} (h : stage.isOver = true) : Next sink stopped u b stage b stage

variable {σ : Type} {sink : Sink σ} {stopped : Bool} {u : ClassUnit} {b b' : Bench σ} {stage stage' : Stage}

theorem next_cases (sink : Sink σ) (stopped : Bool) (u : ClassUnit) (b : Bench σ) (stage : Stage) :
    Next sink stopped u b stage (stage.next sink stopped u b).1 (stage.next sink stopped u b).2 := by
  cases stage with
  | waiting =>
    cases stopped with
    | false => exact .start rfl
    | true => exact .drop rfl
  | begun =>
    cases hu : u.bytes with
    | error fault =>
      simp only [next, hu]
      exact .unread hu
    | ok bytes =>
      rcases hget : b.scanner.cache.get? (Digest.sha256 bytes).hex with ⟨_ | a, cache⟩
      · simp only [next, hu, hget]
        exact .miss hu
      · simp only [next, hu, hget]
        exact .hit hu hget
  | missed bytes =>
    cases ha : analyzeBytes b.scanner.links bytes with
    | error error =>
      simp only [next, ha]
      exact .reject ha
    | ok a =>
      simp only [next, ha]
      exact .remember ha
  | analyzed bytes a fromCache => exact .make bytes a fromCache
  | ready d =>
    cases hput : sink.put b.target d with
    | ok target =>
      simp only [next, hput]
      exact .store hput
    | error reason =>
      simp only [next, hput]
      exact .refuse hput
  | stored d => exact .rest rfl
  | refused d reason => exact .rest rfl
  | failed error => exact .rest rfl
  | dropped => exact .rest rfl

/-- What a stage knows about its unit: the contents it has are the unit's, and the analysis is how
the unit settles. -/
def Sound (links : Linker) (K : Set Bytes) (u : ClassUnit) : Stage → Prop
  | waiting | begun | dropped => True
  | missed bytes => u.bytes = .ok bytes
  | analyzed bytes a _ => u.bytes = .ok bytes ∧
    ∃ same ∈ K, Digest.sha256 same = Digest.sha256 bytes ∧ analyzeBytes links same = .ok a
  | ready d | stored d | refused d _ => Settles links K u (.ok d)
  | failed e => Settles links K u (.error e)

end Stage

/-- Documents handed over, errors recorded, documents counted. -/
abbrev Tally := Multiset Document × Multiset UnitError × ℕ

/-- The books, after these documents have been handed over. -/
def Bench.tally (given : List Document) (b : Bench σ) : Tally :=
  (given, b.scanner.stats.errors, b.scanner.stats.indexed)

namespace Stage

/-- What the work on a unit has entered in the books. -/
def entered : Stage → Tally
  | ready _ | refused .. => (0, 0, 1)
  | stored d => ({d}, 0, 1)
  | failed e => (0, {e}, 0)
  | _ => 0

namespace Next

variable {σ : Type} {sink : Sink σ} {stopped : Bool} {u : ClassUnit} {b b' : Bench σ} {stage stage' : Stage}
  {links : Linker} {K : Set Bytes}

/-- No stage changes how links are written or how many units were counted. -/
theorem frame (h : Next sink stopped u b stage b' stage') :
    b'.scanner.links = b.scanner.links ∧ b'.scanner.stats.units = b.scanner.stats.units := by
  cases h <;> exact ⟨rfl, rfl⟩

/-- A stage brings nothing into the cache but the analysis of its unit. -/
theorem sound (h : Next sink stopped u b stage b' stage') (hu : u.Within K)
    (hb : b.scanner.cache.Backed b.scanner.links K) (hs : stage.Sound b.scanner.links K u) :
    b'.scanner.cache.Backed b.scanner.links K ∧ stage'.Sound b.scanner.links K u := by
  cases h with
  | start | drop | rest => exact ⟨hb, hs⟩
  | unread hread => exact ⟨hb, .unread hread⟩
  | @hit bytes a cache hread hget =>
    obtain ⟨same, hsame, hhex, ha⟩ := hb _ a (Cache.mem_entries_of_get? (by rw [hget]))
    have hcache := hb.get? (Digest.sha256 bytes).hex
    rw [hget] at hcache
    exact ⟨hcache, hread, same, hsame, hex_injective hhex, ha⟩
  | miss hread => exact ⟨hb, hread⟩
  | reject ha => exact ⟨hb, .rejected hs ha⟩
  | @remember bytes a ha => exact ⟨hb.add (hu bytes hs) ha, hs, bytes, hu bytes hs, rfl, ha⟩
  | make bytes a fromCache =>
    obtain ⟨hread, same, hsame, hdigest, ha⟩ := hs
    exact ⟨hb, .analyzed hread hsame hdigest ha⟩
  | store | refuse => exact ⟨hb, hs⟩

/-- The books change by what the stage enters, and the target by the document that it hands over. -/
theorem books (h : Next sink stopped u b stage b' stage') {given : List Document} {t : σ}
    (hfilled : given.foldlM sink.put t = .ok b.target) :
    ∃ given', given'.foldlM sink.put t = .ok b'.target ∧
      b'.tally given' + stage.entered = b.tally given + stage'.entered := by
  cases h with
  | @store d target hput =>
    refine ⟨given ++ [d], ?_, ?_⟩
    · rw [List.foldlM_append, hfilled]
      show sink.put b.target d >>= pure = _
      rw [hput]
      rfl
    · simp [Bench.tally, entered, ← Multiset.coe_add]
  | unread | reject => exact ⟨given, hfilled, by simp [Bench.tally, entered, Bench.fail, Scanner.fail, Stats.fail,
      ← Multiset.coe_add]⟩
  | make bytes a fromCache => exact ⟨given, hfilled, by simp [Bench.tally, entered, Scanner.made]⟩
  | _ => exact ⟨given, hfilled, rfl⟩

/-- No more documents come from the cache than are counted. -/
theorem cached (h : Next sink stopped u b stage b' stage')
    (hle : b.scanner.stats.cached ≤ b.scanner.stats.indexed) :
    b'.scanner.stats.cached ≤ b'.scanner.stats.indexed := by
  cases h with
  | make bytes a fromCache =>
    show b.scanner.stats.cached + (if fromCache then 1 else 0) ≤ b.scanner.stats.indexed + 1
    split <;> omega
  | _ => exact hle

/-- Work that is not over comes closer to its end. -/
theorem rank (h : Next sink stopped u b stage b' stage') : stage'.rank ≤ stage.rank - 1 := by
  cases h with
  | rest h => cases stage <;> simp_all [Stage.rank, isOver]
  | _ => simp [Stage.rank]

end Next

/-- What every next stage keeps, any number of stages keeps. -/
theorem advance_induction {σ : Type} {sink : Sink σ} {u : ClassUnit} {P : Bench σ → Stage → Prop}
    (hnext : ∀ b stage b' stage', P b stage → stage.Next sink false u b b' stage' → P b' stage')
    {b : Bench σ} {stage : Stage} (h : P b stage) (n : Nat) :
    P (advance sink u n (b, stage)).1 (advance sink u n (b, stage)).2 := by
  induction n generalizing b stage with
  | zero => exact h
  | succ n ih => exact ih (hnext _ _ _ _ h (next_cases sink false u b stage))

theorem rank_eq_zero {stage : Stage} : stage.rank = 0 ↔ stage.isOver = true := by
  cases stage <;> simp [rank, isOver]

theorem rank_advance {σ : Type} (sink : Sink σ) (u : ClassUnit) (n : Nat) (done : Bench σ × Stage) :
    (advance sink u n done).2.rank ≤ done.2.rank - n := by
  induction n generalizing done with
  | zero => exact Nat.le_refl _
  | succ n ih =>
    obtain ⟨b, stage⟩ := done
    have hfirst := (next_cases sink false u b stage).rank
    refine (ih (stage.next sink false u b)).trans ?_
    show (stage.next sink false u b).2.rank - n ≤ stage.rank - (n + 1)
    omega

end Stage

/-- The smallest class file, of a class `A`. -/
def smallFile : Bytes :=
  [0xca, 0xfe, 0xba, 0xbe, 0, 0, 0, 52, 0, 3, 1, 0, 1, 65, 7, 0, 1, 0, 0, 0, 2, 0, 0, 0, 0, 0, 0, 0, 0, 0, 0]

end ClassAtlas.Scan
