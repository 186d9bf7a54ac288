import ClassAtlas.Text.Raw

/-!
A bucket: values under distinct keys, kept in the order of the keys' bytes.
-/
namespace ClassAtlas.Index

structure Bucket (α : Type) where
  entries : List (RawText × α)
deriving Repr, DecidableEq

namespace Bucket

def empty : Bucket α := ⟨[]⟩

def lookup (key : RawText) : List (RawText × α) → Option α
  | [] => none
  | (k, a) :: rest => if k = key then some a else lookup key rest

/-- Puts a value in its place, over one that is there. -/
def insertInto (key : RawText) (value : α) : List (RawText × α) → List (RawText × α)
  | [] => [(key, value)]
  | (k, a) :: rest =>
    if key = k then (key, value) :: rest
    else if key < k then (key, value) :: (k, a) :: rest
    else (k, a) :: insertInto key value rest

def get? (b : Bucket α) (key : RawText) : Option α := lookup key b.entries

def insert (b : Bucket α) (key : RawText) (value : α) : Bucket α :=
  ⟨insertInto key value b.entries⟩

def erase (b : Bucket α) (key : RawText) : Bucket α := ⟨b.entries.filter (·.1 ≠ key)⟩

def keys (b : Bucket α) : List RawText := b.entries.map (·.1)

theorem get?_insert (b : Bucket α) (key k : RawText) (value : α) :
    (b.insert key value).get? k = if key = k then some value else b.get? k := by
  simp only [insert, get?]
  generalize b.entries = es
  induction es with
  | nil => simp [insertInto, lookup]
  | cons e rest ih =>
    obtain ⟨k', a⟩ := e
    simp only [insertInto]
    split
    · rename_i h
      subst h
      by_cases hk : key = k <;> simp [lookup, hk]
    · split
      · by_cases hk : key = k <;> simp [lookup, hk]
      · rename_i hne _
        by_cases hk : key = k
        · subst hk
          simpa [lookup, Ne.symm hne] using ih
        · by_cases hk' : k' = k <;> simp_all [lookup]

theorem get?_erase (b : Bucket α) (key k : RawText) :
    (b.erase key).get? k = if key = k then none else b.get? k := by
  simp only [erase, get?]
  generalize b.entries = es
  induction es with
  | nil => simp [lookup]
  | cons e rest ih =>
    obtain ⟨k', a⟩ := e
    by_cases hk' : k' = key
    · subst hk'
      by_cases hk : k' = k <;> simp_all [lookup]
    · by_cases hk : k' = k
      · subst hk
        simp [lookup, hk', Ne.symm hk']
      · by_cases hkk : key = k <;> simp_all [lookup]

end Bucket
end ClassAtlas.Index
