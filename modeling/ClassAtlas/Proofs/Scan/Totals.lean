import ClassAtlas.Proofs.Scan.Crews
import ClassAtlas.Proofs.Scan.Findings
import ClassAtlas.Scan.Scanner
import Mathlib

/-! The totals of a run add up.

A run comes across what there is below its root (`covers_root`), and each thing that it comes across
enters the totals once, in whatever order the walk and the jobs take their turns (`Crew.Calm.addsUp`): a unit
is counted and then makes a document or an error, what cannot be read makes an error. -/
namespace ClassAtlas.Scan
open Xref
open Index (Document)

def Finding.unit? : Finding → Option ClassUnit
  | unit u => some u
  | fault .. => none

/-- The error that something unreadable makes. -/
def Finding.error? : Finding → Option UnitError
  | unit _ => none
  | fault name error => some ⟨name, error⟩

theorem units_of_findings (events : List Event) :
    events.filterMap Event.unit? = (events.filterMap Event.finding?).filterMap Finding.unit? := by
  rw [List.filterMap_filterMap]
  refine List.filterMap_congr fun e _ => ?_
  cases e <;> rfl

theorem errors_of_findings (events : List Event) :
    events.filterMap Event.error? = (events.filterMap Event.finding?).filterMap Finding.error? := by
  rw [List.filterMap_filterMap]
  refine List.filterMap_congr fun e _ => ?_
  cases e <;> rfl

/-- The sink refuses nothing. -/
def Sink.TakesAll (sink : Sink σ) : Prop := ∀ t d, ∃ t', sink.put t d = .ok t'

theorem Sink.TakesAll.takes {sink : Sink σ} (h : sink.TakesAll) (t : σ) : sink.Takes t fun _ => True := by
  intro given _
  induction given generalizing t with
  | nil => exact ⟨t, rfl⟩
  | cons d rest ih =>
    obtain ⟨t₁, hput⟩ := h t d
    obtain ⟨t₂, hrest⟩ := ih t₁ fun _ _ => trivial
    exact ⟨t₂, by rw [List.foldlM_cons, hput]; exact hrest⟩

/-- The totals of a run are those of some findings, after some earlier units. -/
def Accounts (sink : Sink σ) (links : Linker) (earlier : List ClassUnit) (found : List Finding) (t : σ)
    (stats : Stats) (target : σ) : Prop :=
  ∃ rs, AddsUp sink links (contents (earlier ++ found.filterMap Finding.unit?)) (found.filterMap Finding.unit?)
    (found.filterMap Finding.error?) rs t stats target

/-- A run along some events accounts for what it comes across, however the walk and the jobs take turns:
from wherever it has got it can be brought to its end, and in the end the totals add up. -/
theorem Crew.accounts {links : Linker} {capacity : Int} {earlier : List ClassUnit} {s : Scanner}
    (hs : Scanner.LeftBy links capacity earlier s) {σ : Type} {sink : Sink σ} (hsink : sink.TakesAll) (t : σ)
    (events : List Event) {turns : List Turn} (hturns : .cancel ∉ turns) :
    (∃ more, .cancel ∉ more ∧ (((start s t false events).run sink turns).run sink more).IsOver) ∧
      (((start s t false events).run sink turns).IsOver →
        ((start s t false events).run sink turns).error? = none ∧
        Accounts sink links earlier (events.filterMap Event.finding?) t
          ((start s t false events).run sink turns).bench.scanner.stats
          ((start s t false events).run sink turns).bench.target) := by
  refine ⟨exists_isOver sink _, fun hover => ?_⟩
  obtain ⟨rfl, hcache⟩ := hs.backed
  have hcontents : contents earlier ⊆ contents (earlier ++ events.filterMap Event.unit?) := by
    rw [contents_append]
    exact Set.subset_union_left
  have hbacked := hcache.mono hcontents
  have hunits : ∀ u, .unit u ∈ events → u.Within (contents (earlier ++ events.filterMap Event.unit?)) :=
    fun u hu => within_contents (List.mem_append_right earlier (mem_units.2 hu))
  have hcalm := calm_run hbacked hunits (hsink.takes t) (fun _ _ _ _ => trivial) hturns
  obtain ⟨hend, rs, hrs⟩ := hcalm.addsUp (keeps_run hbacked hunits t false turns) hover
  refine ⟨hend, rs, ?_⟩
  rw [units_of_findings, errors_of_findings] at hrs
  exact hrs

/-- **The totals of a run add up**, for whatever there is below its root: each thing there is found
once, and each enters the totals once, in whatever order the walk and the jobs take turns. Below a root that
is a link to a directory there is nothing. -/
theorem run_adds_up {links : Linker} {capacity : Int} {earlier : List ClassUnit} {s : Scanner}
    (hs : Scanner.LeftBy links capacity earlier s) {σ : Type} {sink : Sink σ} (hsink : sink.TakesAll) (t : σ)
    {δ : Type} {disk : Disk δ} {files : δ} {path : RawText} {node : FileNode} (hfind : disk.find files path = .ok node)
    {opener : Opener} {depth : Nat} (hnests : Nests (.on disk files opener depth) disk files path node)
    (hroot : ∀ suffix, Root.of disk files path node ≠ .unsupported suffix) :
    ∃ found : List (Place × Finding), (found.map Prod.fst).Nodup ∧
      (∀ p f, (p, f) ∈ found ↔ Holds (.on disk files opener depth) disk files path node p f) ∧
      (∀ events, events = ((Root.of disk files path node).trail (.on disk files opener depth) path).events →
        ∀ turns, .cancel ∉ turns → ∀ c, c = (Crew.start s t false events).run sink turns →
          (∃ more, .cancel ∉ more ∧ (c.run sink more).IsOver) ∧
          (c.IsOver → c.error? = none ∧
            Accounts sink links earlier (found.map Prod.snd) t c.bench.scanner.stats c.bench.target)) ∧
      ∃ stats s' target, s.run sink opener depth disk files false path t = some (⟨some stats, none⟩, s', target) ∧
        Accounts sink links earlier (found.map Prod.snd) t stats target := by
  obtain ⟨hwhole, found, hnodup, hmem, hevents⟩ := covers_root hnests
  refine ⟨found, hnodup, hmem, ?_, ?_⟩
  · rintro events rfl turns hturns c rfl
    rw [← hevents]
    exact Crew.accounts hs hsink t _ hturns
  · let trail := (Root.of disk files path node).trail (.on disk files opener depth) path
    let c := (Crew.start s t false trail.events).run sink (Crew.inOrder trail.events.length)
    have hover : c.IsOver := Crew.isOver_inOrder le_rfl nofun
    obtain ⟨hend, haccounts⟩ := (Crew.accounts hs hsink t trail.events (Crew.cancel_not_mem_inOrder _)).2 hover
    rw [hevents] at haccounts
    refine ⟨c.bench.scanner.stats, c.bench.scanner, c.bench.target, ?_, haccounts⟩
    simp only [Scanner.run, hfind]
    rw [show trail.whole = true from hwhole, Bool.true_or, if_pos rfl, ← hend]

/-- A class, one that may not be opened, an archive with another in it, and a class in a hidden directory. -/
def sampleFolder : List (RawText × FileNode) :=
  [(".git", .directory [("B.class", .file (.ok smallFile))] []), ("A.class", .file (.ok smallFile)),
    ("B.class", .file (.error (.opening, .denied))), ("o.zip", .file (.ok outerArchive))]

/-- A directory with these in it, and a link to the directory. -/
def sampleTree : FileTree where
  root := .directory [("d", .directory sampleFolder []), ("l", .link "d")] []
  place := []

theorem isLink_sampleTree : FileTree.disk.isLink sampleTree "d" = false := by cbv

theorem seen_sampleFolder : sampleFolder.map (seen FileTree.disk sampleTree "d") = sampleFolder := by cbv

theorem nests_sampleTree (opener : Opener) (hopener : archivesAt opener 2 (.file "d/o.zip") outerArchive = []) :
    Nests (.on FileTree.disk sampleTree opener 2) FileTree.disk sampleTree "d" (.directory sampleFolder []) := by
  have hread : FileTree.disk.read sampleTree "d/o.zip" = .ok outerArchive := by cbv
  have hpath : [("o.zip" : RawText)].foldl Path.join "d" = "d/o.zip" := by decide +kernel
  refine ⟨fun h => by simp [isLink_sampleTree] at h, fun _ p names hleads => ?_⟩
  rw [seen_sampleFolder] at hleads
  cases hleads with
  | here h hnode =>
    replace h := List.mem_of_getElem? h
    simp only [sampleFolder, List.mem_cons, List.not_mem_nil, or_false] at h
    rcases h with h | h | h | h <;> cases h
    · exact absurd trivial hnode
    · exact fun harchive => absurd harchive (by decide +kernel)
    · exact fun harchive => absurd harchive (by decide +kernel)
    · intro _ bytes hbytes
      rw [hpath] at hbytes ⊢
      obtain rfl := Except.ok.inj (hread.symm.trans hbytes)
      exact hopener
  | down h hshown _ =>
    replace h := List.mem_of_getElem? h
    simp only [sampleFolder, List.mem_cons, List.not_mem_nil, or_false] at h
    rcases h with h | h | h | h <;> cases h
    exact absurd hshown (by decide +kernel)

/-- Runs of a new scanner over that directory, into a list: there is a unit for either class, and for none
when the path is the link. -/
theorem run_adds_up_sampleTree :
    let links : Linker := ⟨"/s?"⟩
    let sink : Sink (List Document) := ⟨fun ds d => .ok (ds ++ [d])⟩
    let s : Scanner := ⟨links, .empty 1, .none⟩
    let node : FileNode := .directory sampleFolder []
    FileTree.disk.find sampleTree "d" = .ok node ∧ FileTree.disk.find sampleTree "l" = .ok node ∧
      (∃ found : List (Place × Finding), (found.map Prod.fst).Nodup ∧
        ([1], .unit ⟨"A.class", .ok smallFile⟩) ∈ found ∧
        ([2], .unit ⟨"B.class", .error ⟨.opening, "d/B.class", .denied⟩⟩) ∈ found ∧
        ∃ stats s' target, s.run sink Archive.Zip.entries 2 FileTree.disk sampleTree false "d" [] =
          some (⟨some stats, none⟩, s', target) ∧
          Accounts sink links [] (found.map Prod.snd) [] stats target) ∧
      ∃ stats s' target, s.run sink Archive.Zip.entries 2 FileTree.disk sampleTree false "l" [] =
        some (⟨some stats, none⟩, s', target) ∧ stats.units = 0 ∧ stats.errors = [] := by
  intro links sink s node
  have hleft : Scanner.LeftBy links 1 [] s := .new rfl
  have hsink : sink.TakesAll := fun ds d => ⟨ds ++ [d], rfl⟩
  have hd : FileTree.disk.find sampleTree "d" = .ok node := by cbv
  have hl : FileTree.disk.find sampleTree "l" = .ok node := by cbv
  have hlinked : FileTree.disk.isLink sampleTree "l" = true := by cbv
  refine ⟨hd, hl, ?_, ?_⟩
  · have hnests := nests_sampleTree Archive.Zip.entries (by decide +kernel)
    have hroot : ∀ suffix, Root.of FileTree.disk sampleTree "d" node ≠ .unsupported suffix := by
      intro suffix
      simp [Root.of, node, isLink_sampleTree]
    obtain ⟨found, hnodup, hmem, -, hrun⟩ := run_adds_up hleft hsink [] hd hnests hroot
    have hclassFile : ∀ i base contents r, sampleFolder[i]? = some (base, .file contents) →
        Path.isClass (Path.join "d" base) = true → FileTree.disk.read sampleTree (Path.join "d" base) = r →
        ([i], .unit ⟨base, r⟩) ∈ found := by
      rintro i base contents _ h hclass rfl
      have hleads : Leads (sampleFolder.map (seen FileTree.disk sampleTree "d")) [i] [base] := by
        rw [seen_sampleFolder]
        exact .here h (by simp [FileNode.IsDirectory])
      have hthere : Holds (.on FileTree.disk sampleTree Archive.Zip.entries 2) FileTree.disk sampleTree "d" node
          ([i] ++ []) (.unit ⟨.intercalate "/" [base], _⟩) :=
        .below isLink_sampleTree hleads (.classFile hclass)
      rw [intercalate_singleton] at hthere
      exact (hmem _ _).2 hthere
    have hjoin : Path.join "d" "A.class" = "d/A.class" ∧ Path.join "d" "B.class" = "d/B.class" := by decide +kernel
    refine ⟨found, hnodup, hclassFile 1 _ _ _ rfl (by decide +kernel) ?_,
      hclassFile 2 _ _ _ rfl (by decide +kernel) ?_, hrun⟩
    · rw [hjoin.1]
      cbv
    · rw [hjoin.2]
      cbv
  · have hclass : Path.isClass "l" = false := by decide +kernel
    have harchive : Path.isArchive "l" = false := by decide +kernel
    have hnests : Nests (.on FileTree.disk sampleTree Archive.Zip.entries 2) FileTree.disk sampleTree "l" node :=
      ⟨fun _ h => by simp [harchive] at h, fun h => by simp [hlinked] at h⟩
    have hroot : ∀ suffix, Root.of FileTree.disk sampleTree "l" node ≠ .unsupported suffix := by
      intro suffix
      simp [Root.of, node, hlinked]
    obtain ⟨found, -, hmem, -, stats, s', target, hrun, rs, hsum⟩ := run_adds_up hleft hsink [] hl hnests hroot
    have hnone : found = [] := by
      rw [List.eq_nil_iff_forall_not_mem]
      rintro ⟨p, f⟩ hf
      have hholds := (hmem p f).1 hf
      rw [holds_directory_iff, if_pos hlinked] at hholds
      exact not_inPath hclass harchive hholds
    subst hnone
    have hrs : rs = [] := by simpa using hsum.settled
    refine ⟨stats, s', target, hrun, hsum.units, ?_⟩
    simpa [hrs, errorsIn] using hsum.errors

end ClassAtlas.Scan
