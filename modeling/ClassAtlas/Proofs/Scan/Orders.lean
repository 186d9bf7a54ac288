import ClassAtlas.Command.Program
import ClassAtlas.Proofs.Index.Runs
import ClassAtlas.Proofs.Scan.Crews

/-! Neither the order of the work nor the cache shows in its results.

Whatever turns a run takes, once it is over the documents handed over, the errors and the totals are those
of analyzing each unit afresh, up to the order of documents and of errors (`AsFresh`).

A store that was given the documents of units with different names tells of the same documents as if they
had come in the order of the units; and if the names are texts, it answers every question so
(`Crew.store_alike`). Under other names the lists it searches may be in another order, for posting lists keep
paths as mended. -/
namespace ClassAtlas.Scan
open Xref
open Index (Document)

/-- The documents of units that are analyzed afresh. -/
def freshDocuments (links : Linker) (us : List ClassUnit) : List Document := documentsIn (us.map (·.fresh links))

def freshErrors (links : Linker) (us : List ClassUnit) : List UnitError := errorsIn (us.map (·.fresh links))

/-- The results are those of analyzing each unit afresh and handing its document over. -/
structure AsFresh (sink : Sink σ) (t : σ) (links : Linker) (events : List Event) (stats : Stats) (target : σ) :
    Prop where
  given : ∃ given : List Document, given.Perm (freshDocuments links (events.filterMap Event.unit?)) ∧
    given.foldlM sink.put t = .ok target
  errors : stats.errors.Perm
    (events.filterMap Event.error? ++ freshErrors links (events.filterMap Event.unit?))
  units : stats.units = (events.filterMap Event.unit?).length
  indexed : stats.indexed = (freshDocuments links (events.filterMap Event.unit?)).length
  failures : ∀ k, stats.failures k =
    (events.filterMap Event.error? ++ freshErrors links (events.filterMap Event.unit?)).countP (·.kind == k)

section
variable {σ : Type} {sink : Sink σ} {t : σ} {links : Linker} {events events' : List Event} {K : Set Bytes}
  {stats : Stats} {target : σ} {rs : List (Except UnitError Document)}

theorem AddsUp.asFresh (h : AddsUp sink links K (events.filterMap Event.unit?) (events.filterMap Event.error?) rs t
    stats target) (hK : Set.InjOn Digest.sha256 K) : AsFresh sink t links events stats target := by
  obtain rfl := h.fresh hK
  exact ⟨h.given, h.errors, h.units, h.indexed, fun k => (h.failures k).trans (h.errors.countP_eq _)⟩

theorem freshDocuments_perm {us us' : List ClassUnit} (h : us'.Perm us) :
    (freshDocuments links us').Perm (freshDocuments links us) := (h.map _).filterMap _

/-- The order of the events does not matter. -/
theorem AsFresh.perm (h : AsFresh sink t links events' stats target) (hperm : events'.Perm events) :
    AsFresh sink t links events stats target := by
  have hunits := hperm.filterMap Event.unit?
  have herrors : (events'.filterMap Event.error? ++ freshErrors links (events'.filterMap Event.unit?)).Perm
      (events.filterMap Event.error? ++ freshErrors links (events.filterMap Event.unit?)) :=
    (hperm.filterMap _).append ((hunits.map _).filterMap _)
  obtain ⟨given, hgiven, hfilled⟩ := h.given
  exact ⟨⟨given, hgiven.trans (freshDocuments_perm hunits), hfilled⟩, h.errors.trans herrors,
    h.units.trans hunits.length_eq, h.indexed.trans (freshDocuments_perm hunits).length_eq,
    fun k => (h.failures k).trans (herrors.countP_eq _)⟩

end

/-! ### Runs -/

section
variable {links : Linker} {capacity : Int} {earlier : List ClassUnit} {s : Scanner} {events events' : List Event}

/-- A run that is over has come to what analyzing its units afresh comes to, whatever its turns were. -/
theorem Crew.asFresh (hs : Scanner.LeftBy links capacity earlier s)
    (hdigests : Set.InjOn Digest.sha256 (contents (earlier ++ events.filterMap Event.unit?))) {σ : Type}
    {sink : Sink σ} {t : σ} {P : Document → Prop} (hsink : sink.Takes t P)
    (hP : ∀ u ∈ events.filterMap Event.unit?, ∀ d, u.fresh links = .ok d → P d) (hperm : events'.Perm events)
    {turns : List Turn} (hturns : .cancel ∉ turns)
    (hover : ((start s t false events').run sink turns).IsOver) :
    ((start s t false events').run sink turns).error? = none ∧
      AsFresh sink t links events ((start s t false events').run sink turns).bench.scanner.stats
        ((start s t false events').run sink turns).bench.target := by
  obtain ⟨rfl, hcache⟩ := hs.backed
  have hsame := hperm.filterMap Event.unit?
  have hbacked : s.cache.Backed s.links (contents (earlier ++ events.filterMap Event.unit?)) := by
    rw [contents_append]
    exact hcache.mono Set.subset_union_left
  have hunits : ∀ u, .unit u ∈ events' → u ∈ events.filterMap Event.unit? := fun u hu =>
    hsame.subset (mem_units.2 hu)
  have hwithin : ∀ u, .unit u ∈ events' → u.Within (contents (earlier ++ events.filterMap Event.unit?)) :=
    fun u hu => within_contents (List.mem_append_right earlier (hunits u hu))
  have hcalm := calm_run hbacked hwithin hsink
    (fun u hu d hd => hP u (hunits u hu) d (hd.eq_fresh hdigests (hwithin u hu)).symm) hturns
  obtain ⟨hend, rs, hrs⟩ := hcalm.addsUp (keeps_run hbacked hwithin t false turns) hover
  exact ⟨hend, (hrs.asFresh hdigests).perm hperm⟩

end

/-! ### Into a store -/

section Store
open Index Command
variable {s s' : Store} {m : Contents} {ds : List Document} {links : Linker} {us : List ClassUnit}

theorem foldlM_intoStore_holds (h : s.Holds m) (hkeys : ∀ d ∈ ds, Store.IsKey d.path) :
    ∃ s', ds.foldlM intoStore.put s = .ok s' ∧ s'.Holds (m.setAll ds) := by
  induction ds generalizing s m with
  | nil => exact ⟨s, rfl, h⟩
  | cons d ds ih =>
    obtain ⟨s₁, hput, hholds⟩ := (Store.put_holds h d).1 (hkeys d List.mem_cons_self)
    obtain ⟨s₂, hrest, hholds₂⟩ := ih hholds fun d' hd' => hkeys d' (List.mem_cons_of_mem d hd')
    refine ⟨s₂, ?_, hholds₂⟩
    rw [List.foldlM_cons, show intoStore.put s d = .ok s₁ from mapError_eq_ok.2 hput]
    exact hrest

theorem foldlM_intoStore_indexes (h : s.Indexes m) (htexts : ∀ d ∈ ds, d.path.IsText)
    (hfilled : ds.foldlM intoStore.put s = .ok s') : s'.Indexes (m.setAll ds) := by
  induction ds generalizing s m with
  | nil =>
    obtain rfl := Except.ok.inj hfilled
    exact h
  | cons d ds ih =>
    obtain ⟨htext, hrest⟩ := List.forall_mem_cons.1 htexts
    rw [List.foldlM_cons] at hfilled
    obtain ⟨s₁, hput, hfilled⟩ := bind_eq_ok.1 hfilled
    replace hput : s.put d = .ok s₁ := mapError_eq_ok.1 hput
    by_cases hkey : Store.IsKey d.path
    · obtain ⟨s₁', hput', hind⟩ := (Store.put_indexes h htext).1 hkey
      obtain rfl := Except.ok.inj (hput.symm.trans hput')
      exact ih hind hrest hfilled
    · obtain ⟨e, he⟩ := (Store.put_indexes h htext).2 hkey
      cases hput.symm.trans he

/-- A store takes all documents whose paths can be keys. -/
theorem intoStore_takes (h : s.Holds m) : intoStore.Takes s fun d => Store.IsKey d.path := by
  intro given hkeys
  obtain ⟨s', hs', -⟩ := foldlM_intoStore_holds h hkeys
  exact ⟨s', hs'⟩

theorem path_of_fresh {u : ClassUnit} {d : Document} (h : u.fresh links = .ok d) : d.path = u.name := by
  unfold ClassUnit.fresh at h
  split at h
  · cases h
  · split at h
    · obtain rfl := Except.ok.inj h
      rfl
    · cases h

theorem paths_freshDocuments (links : Linker) (us : List ClassUnit) :
    ((freshDocuments links us).map Document.path).Sublist (us.map ClassUnit.name) := by
  induction us with
  | nil => exact .slnil
  | cons u us ih =>
    unfold freshDocuments at ih ⊢
    rw [List.map_cons]
    cases hu : u.fresh links with
    | error e => simpa using ih.cons u.name
    | ok d => simpa [path_of_fresh hu] using ih

theorem exists_unit_of_fresh {d : Document} (hd : d ∈ freshDocuments links us) : ∃ u ∈ us, d.path = u.name := by
  have hmem := (paths_freshDocuments links us).subset (List.mem_map_of_mem hd)
  obtain ⟨u, hu, hname⟩ := List.mem_map.1 hmem
  exact ⟨u, hu, hname.symm⟩

variable {given : List Document} {target plain : Store}

/-- Documents under different paths come to the same documents in a store, in whatever order they come. -/
theorem sameDocuments_of_perm (h : s.Holds m) (hperm : given.Perm ds) (hpaths : (ds.map Document.path).Nodup)
    (hkeys : ∀ d ∈ ds, Store.IsKey d.path) (hgiven : given.foldlM intoStore.put s = .ok target)
    (hds : ds.foldlM intoStore.put s = .ok plain) : target.SameDocuments plain := by
  obtain ⟨target', htarget, hholds⟩ := foldlM_intoStore_holds h fun d hd => hkeys d (hperm.subset hd)
  obtain ⟨plain', hplain, hholds'⟩ := foldlM_intoStore_holds h hkeys
  obtain rfl := Except.ok.inj (hgiven.symm.trans htarget)
  obtain rfl := Except.ok.inj (hds.symm.trans hplain)
  rw [m.setAll_perm hperm ((hperm.map _).nodup_iff.2 hpaths)] at hholds
  exact hholds.toHasDocuments.same hholds'.toHasDocuments

/-- Under texts they come to the same answers. -/
theorem alike_of_perm (h : s.Indexes m) (hperm : given.Perm ds) (hpaths : (ds.map Document.path).Nodup)
    (htexts : ∀ d ∈ ds, d.path.IsText) (hgiven : given.foldlM intoStore.put s = .ok target)
    (hds : ds.foldlM intoStore.put s = .ok plain) : target.Alike plain := by
  have hind := foldlM_intoStore_indexes h (fun d hd => htexts d (hperm.subset hd)) hgiven
  rw [m.setAll_perm hperm ((hperm.map _).nodup_iff.2 hpaths)] at hind
  exact hind.alike (foldlM_intoStore_indexes h htexts hds)

end Store

/-! ### Any order, any cache -/

/-- A run of a scanner comes to the same in every order and overlap. -/
structure OrderFree (links : Linker) (events : List Event) (s : Scanner) : Prop where
  /-- Into any sink that refuses none of the documents: whatever turns were taken, the run can be brought to its
  end, and what it has come to then is what analyzing each unit afresh comes to. -/
  run : ∀ {σ : Type} (sink : Sink σ) (t : σ),
    sink.Takes t (· ∈ freshDocuments links (events.filterMap Event.unit?)) →
    ∀ events' : List Event, events'.Perm events → ∀ turns, .cancel ∉ turns →
    ∀ c, c = (Crew.start s t false events').run sink turns →
      (∃ more, .cancel ∉ more ∧ (c.run sink more).IsOver) ∧
      (c.IsOver → c.error? = none ∧ AsFresh sink t links events c.bench.scanner.stats c.bench.target)
  /-- Into any store, under different names: it has the documents as if the fresh ones had been stored, and if all
  names are texts, it answers so. -/
  store : ((events.filterMap Event.unit?).map ClassUnit.name).Nodup →
    (∀ u ∈ events.filterMap Event.unit?, Index.Store.IsKey u.name) →
    ∀ calls store, store = (Index.Database.empty.run calls).store →
    ∃ plain, (freshDocuments links (events.filterMap Event.unit?)).foldlM Command.intoStore.put store = .ok plain ∧
      ∀ events' : List Event, events'.Perm events → ∀ turns, .cancel ∉ turns →
      ∀ c, c = (Crew.start s store false events').run Command.intoStore turns →
        (∃ more, .cancel ∉ more ∧ (c.run Command.intoStore more).IsOver) ∧
        (c.IsOver → c.bench.target.SameDocuments plain ∧
          ((∀ call ∈ calls, call.StoresText) → (∀ u ∈ events.filterMap Event.unit?, u.name.IsText) →
            c.bench.target.Alike plain))

/-- **Neither the order of the work nor the cache shows in its results**, whatever earlier units
have left in the cache, if no two contents have the same digest; but for the order of what a search finds, under
names that are no texts. -/
theorem any_order_afresh {links : Linker} {capacity : Int} {earlier : List ClassUnit} {events : List Event}
    {s : Scanner} (hs : Scanner.LeftBy links capacity earlier s)
    (hdigests : Set.InjOn Digest.sha256 (contents (earlier ++ events.filterMap Event.unit?))) :
    OrderFree links events s := by
  constructor
  · rintro σ sink t hsink events' hperm turns hturns c rfl
    refine ⟨Crew.exists_isOver sink _, Crew.asFresh hs hdigests hsink (fun u hu d hd => ?_) hperm hturns⟩
    exact List.mem_filterMap.2 ⟨.ok d, List.mem_map.2 ⟨u, hu, hd⟩, rfl⟩
  · rintro hnames hkeys calls store rfl
    have hkeys' : ∀ d ∈ freshDocuments links (events.filterMap Event.unit?), Index.Store.IsKey d.path := by
      intro d hd
      obtain ⟨u, hu, hpath⟩ := exists_unit_of_fresh hd
      exact hpath ▸ hkeys u hu
    have hpaths := (paths_freshDocuments links (events.filterMap Event.unit?)).nodup hnames
    obtain ⟨m, hholds⟩ : ∃ m, (Index.Database.empty.run calls).store.Holds m :=
      Index.Database.run_holds Index.Store.empty_indexes.holds calls
    obtain ⟨plain, hplain, -⟩ := foldlM_intoStore_holds hholds hkeys'
    refine ⟨plain, hplain, ?_⟩
    rintro events' hperm turns hturns c rfl
    refine ⟨Crew.exists_isOver _ _, fun hover => ?_⟩
    have hP : ∀ u ∈ events.filterMap Event.unit?, ∀ d, u.fresh links = .ok d → Index.Store.IsKey d.path :=
      fun u hu d hd => path_of_fresh hd ▸ hkeys u hu
    obtain ⟨-, hfresh⟩ := Crew.asFresh hs hdigests (intoStore_takes hholds) hP hperm hturns hover
    obtain ⟨given, hgiven, hfilled⟩ := hfresh.given
    refine ⟨sameDocuments_of_perm hholds hgiven hpaths hkeys' hfilled hplain, fun hcalls htexts => ?_⟩
    obtain ⟨m', hind, -⟩ := Index.Database.run_consistent hcalls
    refine alike_of_perm hind hgiven hpaths (fun d hd => ?_) hfilled hplain
    obtain ⟨u, hu, hpath⟩ := exists_unit_of_fresh hd
    exact hpath ▸ htexts u hu

/-- Two copies of a class that an earlier unit left in a cache of one entry, with a file that is
cut short and one that could not be read. -/
theorem any_order_afresh_copies :
    let links : Linker := ⟨"/s?"⟩
    let earlier : List ClassUnit := [⟨"old/A.class", .ok smallFile⟩]
    let events : List Event := [.visit, .unit ⟨"A.class", .ok smallFile⟩, .unit ⟨"b/A.class", .ok smallFile⟩,
      .unit ⟨"C.class", .ok (smallFile.take 20)⟩, .unit ⟨"D.class", .error ⟨.opening, "D.class", .missing⟩⟩]
    ∃ s, Scanner.LeftBy links 1 earlier s ∧
      Set.InjOn Digest.sha256 (contents (earlier ++ events.filterMap Event.unit?)) ∧ OrderFree links events s := by
  intro links earlier events
  have hcontents : contents (earlier ++ events.filterMap Event.unit?) = {smallFile, smallFile.take 20} := by
    ext bytes
    simp [contents, earlier, events, Event.unit?, eq_comm]
  have hdigests : Set.InjOn Digest.sha256 (contents (earlier ++ events.filterMap Event.unit?)) := by
    rw [hcontents, Set.injOn_pair]
    intro heq
    exact absurd heq (by decide +kernel)
  have hnew : Scanner.LeftBy links 1 [] ⟨links, .empty 1, .none⟩ := .new rfl
  have hleft := hnew.process Command.intoStore .empty ⟨"old/A.class", .ok smallFile⟩
  exact ⟨_, hleft, hdigests, any_order_afresh hleft hdigests⟩

end ClassAtlas.Scan
