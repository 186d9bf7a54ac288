import ClassAtlas.Index.Store

/-!
The contents of a store as the bytes of a file. A mark comes first, one that no class file and
no archive starts with, and then the buckets: each record behind its key, both as they are.

A text is written with a one before each byte and a zero behind the last, and so is a list.
What is written of a store is read back as that store (`ofImage_image`).
-/
namespace ClassAtlas.Index

/-! ### Texts and lists -/

namespace Image

def writeText : Bytes → Bytes
  | [] => [0]
  | b :: rest => 1 :: b :: writeText rest

/-- The text at the front, and what is behind it. -/
def readText? : Bytes → Option (Bytes × Bytes)
  | 0 :: rest => some ([], rest)
  | _ :: b :: rest => (readText? rest).map fun (text, rest) => (b :: text, rest)
  | _ => none

def writeEntries : List (RawText × RawText) → Bytes
  | [] => [0]
  | (key, record) :: rest => 1 :: (writeText key.bytes ++ writeText record.bytes ++ writeEntries rest)

/-- The entries at the front, and what is behind them; `fuel` bounds their number. -/
def readEntries? : (fuel : Nat) → Bytes → Option (List (RawText × RawText) × Bytes)
  | _, 0 :: rest => some ([], rest)
  | fuel + 1, _ :: rest => do
    let (key, rest) ← readText? rest
    let (record, rest) ← readText? rest
    let (entries, rest) ← readEntries? fuel rest
    return ((⟨key⟩, ⟨record⟩) :: entries, rest)
  | _, _ => none

def writeBucket (b : Bucket RawText) : Bytes := writeEntries b.entries

def readBucket? (bytes : Bytes) : Option (Bucket RawText × Bytes) :=
  (readEntries? bytes.length bytes).map fun (entries, rest) => (⟨entries⟩, rest)

theorem readText?_writeText (text rest : Bytes) : readText? (writeText text ++ rest) = some (text, rest) := by
  induction text with
  | nil => rfl
  | cons b text ih =>
    show (readText? (writeText text ++ rest)).map _ = _
    rw [ih]
    rfl

theorem length_entries_le (entries : List (RawText × RawText)) : entries.length ≤ (writeEntries entries).length := by
  induction entries with
  | nil => exact Nat.zero_le _
  | cons e entries ih =>
    simp only [writeEntries, List.length_cons, List.length_append]
    omega

theorem readEntries?_writeEntries (entries : List (RawText × RawText)) (rest : Bytes) {fuel : Nat}
    (h : entries.length ≤ fuel) : readEntries? fuel (writeEntries entries ++ rest) = some (entries, rest) := by
  induction entries generalizing fuel with
  | nil => cases fuel <;> rfl
  | cons e entries ih =>
    obtain ⟨fuel, rfl⟩ : ∃ n, fuel = n + 1 := ⟨fuel - 1, by simp at h; omega⟩
    rw [writeEntries, List.cons_append, List.append_assoc, List.append_assoc, readEntries?,
      readText?_writeText]
    · dsimp only [bind, Option.bind]
      rw [readText?_writeText]
      dsimp only
      rw [ih (Nat.le_of_succ_le_succ h)]
      rfl
    · nofun

theorem readBucket?_writeBucket (b : Bucket RawText) (rest : Bytes) :
    readBucket? (writeBucket b ++ rest) = some (b, rest) := by
  have hfuel : b.entries.length ≤ (writeEntries b.entries ++ rest).length := by
    have hentries := length_entries_le b.entries
    rw [List.length_append]
    exact Nat.le_add_right_of_le hentries
  rw [readBucket?, writeBucket, readEntries?_writeEntries _ _ hfuel]
  rfl

end Image

/-! ### Stores -/

namespace Store
open Image

def mark : Bytes := [0, 0, 0, 0]

def image (s : Store) : Bytes :=
  mark ++ writeBucket s.docs ++ writeBucket s.defs ++ writeBucket s.refs ++ writeBucket s.full

/-- Why a file is no image. -/
inductive ImageFault where
  | invalid
  | tooSmall (size : Nat)
deriving Repr, DecidableEq

def ImageFault.message : ImageFault → String
  | invalid => "invalid database"
  | tooSmall size => "file size too small " ++ toString size

/-- The store behind the mark. -/
def ofBuckets? (bytes : Bytes) : Option Store := do
  let (docs, rest) ← readBucket? bytes
  let (defs, rest) ← readBucket? rest
  let (refs, rest) ← readBucket? rest
  let (full, rest) ← readBucket? rest
  if rest.isEmpty then return ⟨docs, defs, refs, full⟩ else none

/-- The store in a file. An empty file is a store without documents. -/
def ofImage (bytes : Bytes) : Except ImageFault Store :=
  if bytes.isEmpty then .ok empty
  else
    let known := if mark.isPrefixOf bytes then ofBuckets? (bytes.drop mark.length) else none
    match known with
    | some s => .ok s
    | none => .error (if 2048 < bytes.length ∧ bytes.length < 8192 then .tooSmall bytes.length else .invalid)

/-- A store is read back as it was, whatever its records. -/
theorem ofImage_image (s : Store) : ofImage s.image = .ok s := by
  have hbuckets : ofBuckets? (writeBucket s.docs ++ (writeBucket s.defs ++ (writeBucket s.refs ++
      (writeBucket s.full ++ [])))) = some s := by
    simp only [ofBuckets?, readBucket?_writeBucket, bind, Option.bind]
    rfl
  rw [List.append_nil] at hbuckets
  unfold ofImage image mark
  simp only [List.cons_append, List.nil_append, List.append_assoc, List.isEmpty_cons, Bool.false_eq_true,
    if_false, List.isPrefixOf, beq_self_eq_true, Bool.and_self, if_true, List.length_cons, List.length_nil,
    List.drop_succ_cons, List.drop_zero, hbuckets]

end Store
end ClassAtlas.Index
