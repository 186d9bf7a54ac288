/-!
A cache of bounded size that forgets what was used least recently. What it remembers
under a key is the value last added there.
-/
namespace ClassAtlas.Scan

/-- Entries stand in the order of their last use, the latest first. -/
structure Cache (α : Type) where
  capacity : Nat
  entries : List (String × α)
deriving Repr, DecidableEq

namespace Cache

def empty (capacity : Nat) : Cache α := ⟨capacity, []⟩

def without (c : Cache α) (key : String) : List (String × α) := c.entries.filter (·.1 != key)

/-- The value under a key, which thereby becomes the latest used. -/
def get? (c : Cache α) (key : String) : Option α × Cache α :=
  match c.entries.lookup key with
  | some a => (some a, { c with entries := (key, a) :: c.without key })
  | none => (none, c)

/-- Puts a value under a key. The entry used least recently makes room if need be. -/
def add (c : Cache α) (key : String) (a : α) : Cache α :=
  { c with entries := ((key, a) :: c.without key).take c.capacity }

end Cache
end ClassAtlas.Scan
