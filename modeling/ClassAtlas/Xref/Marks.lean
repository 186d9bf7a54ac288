import ClassAtlas.ClassFile.Constant

/-!
Marks on the indices of a constant pool. A mark outside the pool is ignored.
-/
namespace ClassAtlas.Xref
open ClassFile

structure Marks where
  flags : Array Bool
deriving Repr, DecidableEq

namespace Marks

/-- No index marked, in a pool with the given count. -/
def none (count : Nat) : Marks := ⟨Array.replicate count false⟩

def mark (m : Marks) (i : Index) : Marks := ⟨m.flags.setIfInBounds i.toNat true⟩

def has (m : Marks) (i : Index) : Bool := m.flags.getD i.toNat false

/-- The count of the pool. -/
def size (m : Marks) : Nat := m.flags.size

/-- The number of marked indices. -/
def count (m : Marks) : Nat := m.flags.countP id

/-- The marked indices in ascending order. -/
def toList (m : Marks) : List Nat :=
  (List.range m.flags.size).filter fun i => m.flags.getD i false

/-- Marks every index of a list. -/
def markAll (m : Marks) (is : List Index) : Marks := is.foldl mark m

@[simp] theorem size_mark (m : Marks) (i : Index) : (m.mark i).size = m.size := by
  simp [mark, size]

theorem has_mark (m : Marks) (i j : Index) :
    (m.mark i).has j = (m.has j || (i == j && decide (i.toNat < m.size))) := by
  have hij : (i == j) = decide (i.toNat = j.toNat) := by
    by_cases h : i = j
    · simp [h]
    · have hn : i.toNat ≠ j.toNat := fun e => h (UInt16.toNat_inj.1 e)
      simp [h, hn]
  simp only [mark, has, size, hij, Array.getD_eq_getD_getElem?, Array.getElem?_setIfInBounds]
  by_cases h : i.toNat = j.toNat
  · by_cases hb : i.toNat < m.flags.size
    · simp [h, h ▸ hb]
    · simp [h, h ▸ hb]
  · simp [h]

end Marks
end ClassAtlas.Xref
