import ClassAtlas.Error
import ClassAtlas.Text.Raw

/-!
The totals of a scan: how many units there were, how many documents were made and how many of
them from the cache, and what failed. Failures are counted by kind along with the errors, so
that counts and errors agree in every `Stats` there is.
-/
namespace ClassAtlas.Scan

/-- Why something that goes by a name was not indexed. -/
structure UnitError where
  name : RawText
  error : Error
deriving Repr, DecidableEq

namespace UnitError

def kind (e : UnitError) : Kind := e.error.kind

def isTooLarge (e : UnitError) : Bool := e.error.is .entryTooLarge

def message (e : UnitError) : String :=
  e.name.shown ++ ": " ++ e.kind.name ++ ": " ++ e.error.message

end UnitError

/-- How often failures of each kind came up, for the kinds that did. -/
abbrev Failures := List (Kind × Nat)

namespace Failures

def count (f : Failures) (k : Kind) : Nat := (f.lookup k).getD 0

def total : Failures → Nat
  | [] => 0
  | (_, n) :: rest => n + total rest

/-- One more of a kind. -/
def add (k : Kind) : Failures → Failures
  | [] => [(k, 1)]
  | (j, n) :: rest => if k = j then (j, n + 1) :: rest else (j, n) :: add k rest

theorem count_cons (p : Kind × Nat) (rest : Failures) (j : Kind) :
    count (p :: rest) j = if j = p.1 then p.2 else count rest j := by
  obtain ⟨k, n⟩ := p
  by_cases h : j = k
  · simp [count, h]
  · simp [count, List.lookup_cons, h, beq_false_of_ne h]

theorem count_add (f : Failures) (k j : Kind) : (add k f).count j = f.count j + if k = j then 1 else 0 := by
  induction f with
  | nil =>
    have hnone : count [] j = 0 := rfl
    simp only [add, count_cons, hnone, Nat.zero_add, eq_comm]
  | cons p rest ih =>
    by_cases hp : k = p.1
    · by_cases hj : j = p.1 <;> simp [add, count_cons, hp, hj, Ne.symm]
    · by_cases hj : j = p.1 <;> simp [add, count_cons, hp, hj, ih]

theorem total_add (f : Failures) (k : Kind) : (add k f).total = f.total + 1 := by
  induction f with
  | nil => rfl
  | cons p rest ih =>
    by_cases hp : k = p.1
    · simp [add, total, hp]; omega
    · simp_all [add, total]; omega

end Failures

/-- Totals of a scan; errors in the order of their occurrence. Failures are counted by kind
along with the errors. -/
structure Stats where
  units : Nat
  indexed : Nat
  cached : Nat
  counts : Failures
  errors : List UnitError
  counted : ∀ k, counts.count k = errors.countP (·.kind == k)
  complete : counts.total = errors.length
deriving Repr, DecidableEq

namespace Stats

def none : Stats := ⟨0, 0, 0, [], [], fun _ => rfl, rfl⟩

/-- The number of failures of a kind. -/
def failures (s : Stats) (k : Kind) : Nat := s.counts.count k

def failed (s : Stats) : Nat := s.counts.total

/-- Records an error and counts it. -/
def fail (s : Stats) (e : UnitError) : Stats :=
  { s with
    counts := s.counts.add e.kind
    errors := s.errors ++ [e]
    counted := fun k => by simp [Failures.count_add, s.counted k, List.countP_cons]
    complete := by simp [Failures.total_add, s.complete] }

end Stats

end ClassAtlas.Scan
