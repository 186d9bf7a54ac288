import ClassAtlas.Proofs.Archive.Entries
import ClassAtlas.Scan.Event
import Mathlib.Data.FinEnum
import Mathlib.Data.Fintype.Card
import Mathlib.Data.Set.Finite.List

/-! Whether a walk into archives inside archives ends.

The archives that a walk opens at each depth are `archivesAt`; a walk that is given a depth goes
all the way exactly when there are none so deep (`whole_archiveTrail`), and then a greater depth
changes nothing (`archiveTrail_stable`).

Nothing gets smaller on the way down, so depths may go on forever. What bounds them is only that
there are finitely many contents of a limited size: a walk ends unless it comes to an archive that
has itself inside (`nesting_ends_iff`). Deflated data can be such that there is one: `selfArchive`
is an archive whose only entry inflates to the archive, byte for byte. -/
namespace ClassAtlas.Scan
open Archive

/-! ### Trails -/

namespace Trail
variable {first second : Trail} {trails : List Trail}

@[simp] theorem whole_of (events : List Event) : (of events).whole = true := rfl

@[simp] theorem whole_follow :
    (first.follow second).whole = true ↔ first.whole = true ∧ second.whole = true := by
  cases h : first.whole <;> simp [follow, h]

@[simp] theorem whole_concat : (concat trails).whole = true ↔ ∀ t ∈ trails, t.whole = true := by
  induction trails with
  | nil => simp [concat]
  | cons t rest ih =>
    rw [List.forall_mem_cons, ← ih]
    exact whole_follow

end Trail

/-! ### Archives by their depth -/

/-- The archive inside an entry, if a walk opens one there. -/
def nested? (e : Entry) : Option Bytes :=
  if !e.isDirectory && Path.isArchive e.name then (readEntry e).toOption else none

/-- The archives directly inside an archive. -/
def nestedIn (opener : Opener) (source : Source) (bytes : Bytes) : List Bytes :=
  match opener source bytes with
  | .ok entries => entries.filterMap nested?
  | .error _ => []

/-- The archives that lie so many levels below an archive, which itself is at depth zero. -/
def archivesAt (opener : Opener) : (depth : Nat) → Source → Bytes → List Bytes
  | 0, _, bytes => [bytes]
  | depth + 1, source, bytes => (nestedIn opener source bytes).flatMap (archivesAt opener depth .memory)

/-- An archive has another inside, at some depth. -/
def Contains (opener : Opener) (source : Source) (bytes inner : Bytes) : Prop :=
  ∃ n, inner ∈ archivesAt opener (n + 1) source bytes

section
variable {opener : Opener} {source : Source} {bytes inner innermost : Bytes} {name : RawText} {depth d : Nat}

theorem archivesAt_succ_add (m n : Nat) :
    archivesAt opener (m + 1 + n) source bytes =
      (archivesAt opener (m + 1) source bytes).flatMap (archivesAt opener n .memory) := by
  induction m generalizing source bytes with
  | zero =>
    rw [Nat.zero_add, Nat.add_comm 1 n]
    simp [archivesAt]
  | succ m ih =>
    rw [Nat.add_right_comm (m + 1), archivesAt, archivesAt, List.flatMap_assoc]
    exact congrArg (List.flatMap · _) (funext fun inner => ih)

theorem contains_of_mem (h : inner ∈ nestedIn opener source bytes) : Contains opener source bytes inner :=
  ⟨0, by simpa [archivesAt] using h⟩

theorem Contains.trans (h : Contains opener source bytes inner) (h' : Contains opener .memory inner innermost) :
    Contains opener source bytes innermost := by
  obtain ⟨m, hm⟩ := h
  obtain ⟨n, hn⟩ := h'
  refine ⟨m + 1 + n, ?_⟩
  rw [Nat.add_assoc, archivesAt_succ_add]
  exact List.mem_flatMap.2 ⟨inner, hm, hn⟩

theorem archivesAt_mono (hle : depth ≤ d) (h : archivesAt opener depth source bytes = []) :
    archivesAt opener d source bytes = [] := by
  obtain ⟨n, rfl⟩ := Nat.exists_eq_add_of_le hle
  cases depth with
  | zero => cases h
  | succ depth => rw [archivesAt_succ_add, h, List.flatMap_nil]

/-! ### Walks by their depth -/

theorem whole_entryTrail {nested : RawText → Bytes → Trail} {e : Entry} :
    (entryTrail nested name e).whole = true ↔
      ∀ inner ∈ nested? e, (nested (entryName name e.name) inner).whole = true := by
  unfold entryTrail nested?
  cases e.isDirectory <;> cases Path.isArchive e.name <;> cases Path.isClass e.name <;>
    cases readEntry e <;> simp [Except.toOption]

theorem entryTrail_congr {nested nested' : RawText → Bytes → Trail} {e : Entry}
    (h : ∀ inner ∈ nested? e, nested (entryName name e.name) inner = nested' (entryName name e.name) inner) :
    entryTrail nested name e = entryTrail nested' name e := by
  unfold nested? at h
  unfold entryTrail
  cases hdir : e.isDirectory <;> cases harchive : Path.isArchive e.name <;>
    cases hread : readEntry e <;> simp_all [Except.toOption]

/-- A walk goes all the way when no archives are as deep as it may not go. -/
theorem whole_archiveTrail :
    (archiveTrail opener depth source name bytes).whole = true ↔ archivesAt opener depth source bytes = [] := by
  induction depth generalizing source name bytes with
  | zero => simp [archiveTrail, archivesAt]
  | succ depth ih =>
    unfold archiveTrail archivesAt nestedIn
    cases opener source bytes with
    | error fault => simp
    | ok entries => simp [whole_entryTrail, ih, List.flatMap_eq_nil_iff]; tauto

/-- A walk that went all the way goes the same way with more depth. -/
theorem archiveTrail_stable (h : archivesAt opener depth source bytes = []) (hle : depth ≤ d) :
    archiveTrail opener d source name bytes = archiveTrail opener depth source name bytes := by
  induction depth generalizing source name bytes d with
  | zero => cases h
  | succ depth ih =>
    obtain ⟨d, rfl⟩ : ∃ d', d = d' + 1 := ⟨d - 1, by omega⟩
    unfold archivesAt nestedIn at h
    unfold archiveTrail
    cases hopen : opener source bytes with
    | error fault => rfl
    | ok entries =>
      rw [hopen, List.flatMap_eq_nil_iff] at h
      refine congrArg Trail.concat (List.map_congr_left fun e he => entryTrail_congr fun inner hinner => ?_)
      exact ih (h inner (List.mem_filterMap.2 ⟨e, he, hinner⟩)) (Nat.le_of_succ_le_succ hle)

end

/-! ### Walks without end -/

section
variable {opener : Opener} {source : Source} {bytes inner : Bytes}

/-- No more is read of an entry than the limit. -/
theorem length_of_readEntry {e : Entry} {content : Bytes} (h : readEntry e = .ok content) :
    content.length ≤ entryLimit := by
  unfold readEntry at h
  split at h
  · cases h
  · split at h
    · cases h
    · split at h
      · cases h
      · rename_i hlimit
        obtain rfl := Except.ok.inj h
        exact Nat.le_of_not_lt hlimit

theorem length_of_nested (h : inner ∈ nestedIn opener source bytes) : inner.length ≤ entryLimit := by
  unfold nestedIn at h
  cases hopen : opener source bytes with
  | error fault => simp [hopen] at h
  | ok entries =>
    obtain ⟨e, -, hinner⟩ := List.mem_filterMap.1 (by simpa [hopen] using h)
    cases hread : readEntry e with
    | error fault => simp [nested?, hread, Except.toOption] at hinner
    | ok content =>
      simp only [nested?, hread, Except.toOption, Option.ite_none_right_eq_some] at hinner
      obtain rfl := Option.some.inj hinner.2
      exact length_of_readEntry hread

theorem length_of_contains (h : Contains opener source bytes inner) : inner.length ≤ entryLimit := by
  obtain ⟨n, hn⟩ := h
  induction n generalizing source bytes with
  | zero => exact length_of_nested (by simpa [archivesAt] using hn)
  | succ n ih =>
    obtain ⟨_, _, hmem⟩ := List.mem_flatMap.1 hn
    exact ih hmem

/-- If each of the archives inside has an end, so has the archive around them. -/
theorem exists_archivesAt_of_nested
    (h : ∀ inner ∈ nestedIn opener source bytes, ∃ n, archivesAt opener n .memory inner = []) :
    ∃ n, archivesAt opener n source bytes = [] := by
  obtain ⟨n, hn⟩ : ∃ n, ∀ inner ∈ nestedIn opener source bytes, archivesAt opener n .memory inner = [] := by
    generalize nestedIn opener source bytes = inners at h
    induction inners with
    | nil => exact ⟨0, nofun⟩
    | cons x rest ih =>
      obtain ⟨m, hm⟩ := h x List.mem_cons_self
      obtain ⟨n, hn⟩ := ih fun inner hinner => h inner (List.mem_cons_of_mem x hinner)
      refine ⟨max m n, List.forall_mem_cons.2 ⟨archivesAt_mono (le_max_left m n) hm, fun inner hinner => ?_⟩⟩
      exact archivesAt_mono (le_max_right m n) (hn inner hinner)
  exact ⟨n + 1, List.flatMap_eq_nil_iff.2 hn⟩

/-- Contents of a limited size are finitely many, so going down without coming to one twice ends. -/
theorem exists_archivesAt_eq_nil
    (h : ∀ inner, Contains opener source bytes inner → ¬ Contains opener .memory inner inner) :
    ∃ n, archivesAt opener n source bytes = [] := by
  let Reached := {inner : Bytes // Contains opener source bytes inner}
  let below : Reached → Reached → Prop := fun x y => Contains opener .memory y.1 x.1
  have : Finite Reached :=
    ((List.finite_length_le UInt8 entryLimit).subset fun inner hinner => length_of_contains hinner).to_subtype
  have : IsTrans Reached below := ⟨fun x y z hxy hyz => hyz.trans hxy⟩
  have : Std.Irrefl below := ⟨fun x => h x.1 x.2⟩
  have hwf : WellFounded below := Finite.wellFounded_of_trans_of_irrefl below
  have hreached : ∀ x : Reached, ∃ n, archivesAt opener n .memory x.1 = [] := by
    refine fun x => hwf.induction x fun y ih => exists_archivesAt_of_nested fun inner hinner => ?_
    have hbelow := contains_of_mem hinner
    exact ih ⟨inner, y.2.trans hbelow⟩ hbelow
  exact exists_archivesAt_of_nested fun inner hinner => hreached ⟨inner, contains_of_mem hinner⟩

/-- An archive with itself inside is there at every depth it once gets to. -/
theorem mem_archivesAt_of_contains {m n : Nat} (hm : inner ∈ archivesAt opener (m + 1) source bytes)
    (hn : inner ∈ archivesAt opener (n + 1) .memory inner) (k : Nat) :
    inner ∈ archivesAt opener (m + 1 + k * (n + 1)) source bytes := by
  induction k with
  | zero => simpa using hm
  | succ k ih =>
    have hdepth : m + 1 + (k + 1) * (n + 1) = m + k * (n + 1) + 1 + (n + 1) := by
      rw [Nat.succ_mul]
      omega
    rw [hdepth, archivesAt_succ_add]
    exact List.mem_flatMap.2 ⟨inner, by rwa [Nat.add_right_comm] at ih, hn⟩

/-- **A walk into archives ends unless it comes to one that has itself inside**: there is a depth from
which on no archive is opened, and on which the walk has gone all the way. -/
theorem nesting_ends_iff (opener : Opener) (source : Source) (name : RawText) (bytes : Bytes) :
    (∃ depth, ∀ d, depth ≤ d → archivesAt opener d source bytes = [] ∧
      (archiveTrail opener d source name bytes).whole = true ∧
      archiveTrail opener d source name bytes = archiveTrail opener depth source name bytes) ↔
    ¬ ∃ inner, Contains opener source bytes inner ∧ Contains opener .memory inner inner := by
  constructor
  · rintro ⟨depth, hdepth⟩ ⟨inner, ⟨m, hm⟩, ⟨n, hn⟩⟩
    have hle : depth ≤ m + 1 + depth * (n + 1) :=
      (Nat.le_mul_of_pos_right depth n.succ_pos).trans (Nat.le_add_left _ _)
    have hmem := mem_archivesAt_of_contains hm hn depth
    rw [(hdepth _ hle).1] at hmem
    cases hmem
  · intro h
    obtain ⟨depth, hdepth⟩ := exists_archivesAt_eq_nil fun inner hinner hself => h ⟨inner, hinner, hself⟩
    refine ⟨depth, fun d hle => ⟨archivesAt_mono hle hdepth, ?_, archiveTrail_stable hdepth hle⟩⟩
    exact whole_archiveTrail.2 (archivesAt_mono hle hdepth)

end

/-- An archive without entries. -/
def emptyArchive : Bytes := [80, 75, 5, 6] ++ List.replicate 18 0

/-- An archive with the empty archive in it. -/
def outerArchive : Bytes := [
  80, 75, 3, 4, 20, 0, 0, 0, 0, 0, 0, 0, 33, 0, 0, 0, 0, 0, 22, 0, 0, 0, 22, 0, 0, 0, 5, 0, 0, 0,
  97, 46, 106, 97, 114] ++ emptyArchive ++ [
  80, 75, 1, 2, 20, 0, 20, 0, 0, 0, 0, 0, 0, 0, 33, 0, 0, 0, 0, 0, 22, 0, 0, 0, 22, 0, 0, 0, 5, 0,
  0, 0, 0, 0, 0, 0, 0, 0, 0, 0, 0, 0, 0, 0, 0, 0, 97, 46, 106, 97, 114, 80, 75, 5, 6, 0, 0, 0, 0, 1,
  0, 1, 0, 51, 0, 0, 0, 57, 0, 0, 0, 0, 0]

/-- A walk into the archive with another in it ends. -/
theorem nesting_ends_outerArchive :
    ∃ depth, ∀ d, depth ≤ d →
      archivesAt Zip.entries d (.file "o.zip") outerArchive = [] ∧
      (archiveTrail Zip.entries d (.file "o.zip") "o.zip" outerArchive).whole = true ∧
      archiveTrail Zip.entries d (.file "o.zip") "o.zip" outerArchive =
        archiveTrail Zip.entries depth (.file "o.zip") "o.zip" outerArchive := by
  refine (nesting_ends_iff Zip.entries (.file "o.zip") "o.zip" outerArchive).2 ?_
  have houter : nestedIn Zip.entries (.file "o.zip") outerArchive = [emptyArchive] := by decide +kernel
  have hempty : nestedIn Zip.entries .memory emptyArchive = [] := by decide +kernel
  rintro ⟨inner, ⟨m, hm⟩, ⟨n, hn⟩⟩
  rw [archivesAt, houter] at hm
  cases m with
  | zero =>
    obtain rfl : inner = emptyArchive := by simpa [archivesAt] using hm
    simp [archivesAt, hempty] at hn
  | succ m => simp [archivesAt, hempty] at hm

/-! ### An archive with itself inside -/

/-- The local record of the entry `q.zip`. -/
def selfStart : Bytes := [
  80, 75, 3, 4, 20, 0, 0, 0, 8, 0, 0, 0, 33, 0, 0, 0, 0, 0, 0, 1, 0, 0, 108, 1, 0, 0, 5, 0, 0, 0,
  113, 46, 122, 105, 112]

/-- Deflated data that stored blocks and repetitions make up: it inflates to all of the archive. -/
def selfData : Bytes := [
  0, 40, 0, 215, 255, 80, 75, 3, 4, 20, 0, 0, 0, 8, 0, 0, 0, 33, 0, 0, 0, 0, 0, 0, 1, 0, 0, 108, 1,
  0, 0, 5, 0, 0, 0, 113, 46, 122, 105, 112, 0, 40, 0, 215, 255, 34, 86, 29, 64, 0, 0, 5, 0, 250,
  255, 34, 86, 29, 64, 0, 0, 5, 0, 250, 255, 0, 5, 0, 250, 255, 0, 20, 0, 235, 255, 34, 86, 29, 64,
  0, 0, 5, 0, 250, 255, 0, 5, 0, 250, 255, 0, 20, 0, 235, 255, 66, 136, 33, 196, 0, 0, 20, 0, 235,
  255, 66, 136, 33, 196, 0, 0, 20, 0, 235, 255, 66, 136, 33, 196, 0, 0, 20, 0, 235, 255, 66, 136,
  33, 196, 0, 0, 20, 0, 235, 255, 66, 136, 33, 196, 0, 0, 0, 0, 255, 255, 0, 0, 0, 255, 255, 0, 77,
  0, 178, 255, 66, 136, 33, 196, 0, 0, 0, 0, 255, 255, 0, 0, 0, 255, 255, 0, 77, 0, 178, 255, 163,
  170, 97, 0, 80, 75, 1, 2, 20, 0, 20, 0, 0, 0, 8, 0, 0, 0, 33, 0, 0, 0, 0, 0, 0, 1, 0, 0, 108, 1,
  0, 0, 5, 0, 0, 0, 0, 0, 0, 0, 0, 0, 0, 0, 0, 0, 0, 0, 0, 0, 113, 46, 122, 105, 112, 80, 75, 5, 6,
  0, 0, 0, 0, 1, 0, 1, 0, 51, 0, 0, 0, 35, 1, 0, 0, 0, 0, 163, 170, 97, 0]

/-- The directory, with the sizes of the data and of the archive, and the end record. -/
def selfEnd : Bytes := [
  80, 75, 1, 2, 20, 0, 20, 0, 0, 0, 8, 0, 0, 0, 33, 0, 0, 0, 0, 0, 0, 1, 0, 0, 108, 1, 0, 0, 5, 0,
  0, 0, 0, 0, 0, 0, 0, 0, 0, 0, 0, 0, 0, 0, 0, 0, 113, 46, 122, 105, 112, 80, 75, 5, 6, 0, 0, 0, 0,
  1, 0, 1, 0, 51, 0, 0, 0, 35, 1, 0, 0, 0, 0]

def selfArchive : Bytes := selfStart ++ (selfData ++ selfEnd)

def selfEnding : Zip.Ending := ⟨342, 1, 51, 291⟩

def selfHeader : Zip.Header := ⟨20, 0, 8, 0, 256, 364, "q.zip".toList.map fun c => UInt8.ofNat c.toNat, 0, 0⟩

theorem inflate_selfData : Inflate.inflate 364 selfData.toArray = .ok selfArchive := by decide +kernel

/-- The directory of an archive has one header, of a file with a name. -/
structure Lists (archive : Bytes) (e : Zip.Ending) (h : Zip.Header) (name : RawText) : Prop where
  ending : Zip.ending archive.toArray = .ok e
  start : Zip.start archive.toArray e = .ok 0
  headers : Zip.headers archive.toArray (archive.length + 1) ((0 : Int) + e.offset).toNat = ([h], .cutShort)
  offset : { h with offset := Zip.signed ((h.offset + 0) % 18446744073709551616).toNat } = h
  name_eq : ⟨h.name⟩ = name
  isFile : h.isDirectory = false

theorem lists_selfArchive : Lists selfArchive selfEnding selfHeader "q.zip" where
  ending := by decide +kernel
  start := by decide +kernel
  headers := by decide +kernel
  offset := by decide +kernel
  name_eq := by decide +kernel
  isFile := by decide +kernel

theorem extract_selfArchive : selfArchive.toArray.extract 35 291 = selfData.toArray := by
  rw [List.extract_toArray, List.extract_eq_take_drop]
  exact congrArg List.toArray (by decide +kernel)

theorem read_selfArchive (source : Source) :
    Zip.read source selfArchive.toArray selfHeader = .ok selfArchive := by
  have hrecord : Zip.slice? selfArchive.toArray selfHeader.offset.toNat 30 = some (selfStart.take 30) := by
    decide +kernel
  have hplace : selfHeader.offset.toNat + 30 + Zip.field (selfStart.take 30) 26 2 +
      Zip.field (selfStart.take 30) 28 2 = 35 := by decide +kernel
  have hstop : 35 + (Zip.signed selfHeader.compressed).toNat = 291 := by decide +kernel
  have hdata : Inflate.inflate selfHeader.size (selfArchive.toArray.extract 35 291) = .ok selfArchive := by
    rw [extract_selfArchive]
    exact inflate_selfData
  have hchecked : Zip.checked selfArchive.toArray selfHeader 291 selfArchive = .ok selfArchive := by decide +kernel
  exact Zip.read_deflated (by decide) rfl hrecord (by decide +kernel) hplace hstop hdata hchecked

theorem entries_selfArchive (source : Source) :
    Zip.entries source selfArchive = .ok [⟨"q.zip", false, 364, fun _ => .ok selfArchive⟩] := by
  have hlists := lists_selfArchive
  rw [Zip.entries_eq hlists.ending hlists.start hlists.headers (by decide) (by decide), List.map_singleton,
    hlists.offset]
  simp only [hlists.name_eq, hlists.isFile, read_selfArchive]
  rfl

theorem nestedIn_selfArchive (source : Source) : nestedIn Zip.entries source selfArchive = [selfArchive] := by
  have harchive : Path.isArchive "q.zip" = true := by decide +kernel
  have hread : readEntry ⟨"q.zip", false, 364, fun _ => .ok selfArchive⟩ = .ok selfArchive := by decide +kernel
  simp [nestedIn, entries_selfArchive, nested?, harchive, hread, Except.toOption]

theorem archivesAt_selfArchive (source : Source) (depth : Nat) :
    archivesAt Zip.entries depth source selfArchive = [selfArchive] := by
  induction depth generalizing source with
  | zero => rfl
  | succ depth ih => rw [archivesAt, nestedIn_selfArchive, List.flatMap_singleton, ih]

/-- **A walk into this archive has no end**: at every depth there is the archive to open once more. -/
theorem selfArchive_without_end :
    (¬ ∃ depth, ∀ d, depth ≤ d → archivesAt Zip.entries d (.file "q.zip") selfArchive = []) ∧
      ∀ depth, (archiveTrail Zip.entries depth (.file "q.zip") "q.zip" selfArchive).whole = false := by
  refine ⟨fun ⟨depth, h⟩ => ?_, fun depth => ?_⟩
  · have hnone := h depth le_rfl
    rw [archivesAt_selfArchive] at hnone
    cases hnone
  · rw [Bool.eq_false_iff, Ne, whole_archiveTrail, archivesAt_selfArchive]
    exact List.cons_ne_nil _ _

end ClassAtlas.Scan
