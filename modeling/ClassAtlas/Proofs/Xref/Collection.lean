import ClassAtlas.Proofs.Xref.Resolution
import ClassAtlas.Xref.Analysis

/-! The constants that are left over, collected.

The scan goes through the indices of a pool and looks at the marks, while spelling a constant adds
marks to them. What it lists can be said without the scan: an index *leads* (`Leads`) when its
constant is unmarked at the start and no smaller such index reaches it. The scan fails exactly when
some unmarked constant cannot be spelled, also one that it would have passed over; otherwise it
lists the texts of the leading indices in order, and in the end every constant is marked
(`collect_lists_leading`).

Each turn of the scan takes the least unmarked index. This is the invariant of the induction, and
all that the order of the scan is used for. -/
namespace ClassAtlas.Xref.Resolver
open ClassFile

variable {pool : Pool} {m m' : Marks} {i j : Index} {text : String}

/-- A constant stands at the index, and it is not marked. -/
def Unmarked (pool : Pool) (m : Marks) (i : Index) : Prop := (pool.get? i).isSome = true ∧ m.has i = false

/-- The index is unmarked, and no smaller unmarked index reaches it. -/
def Leads (pool : Pool) (m : Marks) (i : Index) : Prop :=
  Unmarked pool m i ∧ ∀ j < i, Unmarked pool m j → ¬ pool.Reaches j i

/-- What a scan that starts with the marks `m` and ends with `m'` lists: the texts of the leading
indices in ascending order. Every constant is marked in the end, and nothing beside them and what
was marked before. -/
structure Listed (pool : Pool) (m : Marks) (leading : List Index) (texts : List String) (m' : Marks) : Prop where
  ordered : leading.Pairwise (· < ·)
  leads : ∀ i, i ∈ leading ↔ Leads pool m i
  spelled : List.Forall₂ (Spelled pool) leading texts
  size : m'.size = m.size
  marked : ∀ j, m'.has j = true ↔ m.has j = true ∨ (pool.get? j).isSome = true

/-! ### One turn -/

theorem isSome_of_spelled (h : Spelled pool i text) : (pool.get? i).isSome = true := by
  obtain ⟨c, hc⟩ := h.present
  rw [hc]
  rfl

/-- A turn leaves unmarked what its constant does not reach. -/
theorem unmarked_resolve (hm : m.size = pool.count) (h : Spelled pool i text) :
    Unmarked pool ((resolve pool i).run m).2 j ↔ Unmarked pool m j ∧ ¬ pool.Reaches i j := by
  have hhas := has_resolve m hm h j
  unfold Unmarked
  rw [← Bool.not_eq_true, hhas, ← Bool.not_eq_true, not_or, and_assoc]

/-- When the least unmarked index has its turn, it leads, and beside it what leads afterwards. -/
theorem leads_resolve (hm : m.size = pool.count) (h : Spelled pool i text) (hi : Unmarked pool m i)
    (hleast : ∀ j, Unmarked pool m j → j = i ∨ i < j) :
    Leads pool m j ↔ j = i ∨ Leads pool ((resolve pool i).run m).2 j := by
  refine ⟨fun hleads => ?_, fun hleads => ?_⟩
  · obtain ⟨hj, hfirst⟩ := hleads
    rcases hleast j hj with rfl | hij
    · exact .inl rfl
    · have hunreached : ¬ pool.Reaches i j := hfirst i hij hi
      refine .inr ⟨(unmarked_resolve hm h).2 ⟨hj, hunreached⟩, fun k hk hunmarked => ?_⟩
      exact hfirst k hk ((unmarked_resolve hm h).1 hunmarked).1
  · rcases hleads with rfl | ⟨hj, hfirst⟩
    · refine ⟨hi, fun k hk hunmarked => ?_⟩
      rcases hleast k hunmarked with rfl | hjk
      · exact absurd hk (UInt16.lt_irrefl k)
      · exact absurd hk (UInt16.lt_asymm hjk)
    · obtain ⟨hj', hunreached⟩ := (unmarked_resolve hm h).1 hj
      refine ⟨hj', fun k hk hunmarked hkj => ?_⟩
      -- An index that the turn marks reaches nothing that the turn leaves unmarked.
      have hik : ¬ pool.Reaches i k := fun hik => hunreached (hik.trans hkj)
      exact hfirst k hk ((unmarked_resolve hm h).2 ⟨hunmarked, hik⟩) hkj

namespace Listed

variable {leading : List Index} {texts : List String}

/-- With nothing unmarked, nothing is listed. -/
theorem nil (h : ∀ i, ¬ Unmarked pool m i) : Listed pool m [] [] m where
  ordered := .nil
  leads := fun i => ⟨nofun, fun hi => absurd hi.1 (h i)⟩
  spelled := .nil
  size := rfl
  marked := by
    intro j
    refine ⟨.inl, fun hj => ?_⟩
    rcases hj with hhas | hsome
    · exact hhas
    · by_contra hhas
      exact h j ⟨hsome, Bool.not_eq_true _ ▸ hhas⟩

/-- A turn of the least unmarked index comes before what is listed afterwards. -/
theorem cons (hm : m.size = pool.count) (htext : Spelled pool i text) (hi : Unmarked pool m i)
    (hleast : ∀ j, Unmarked pool m j → j = i ∨ i < j)
    (h : Listed pool ((resolve pool i).run m).2 leading texts m') :
    Listed pool m (i :: leading) (text :: texts) m' where
  ordered := by
    refine List.pairwise_cons.2 ⟨fun k hk => ?_, h.ordered⟩
    obtain ⟨hunmarked, hunreached⟩ := (unmarked_resolve hm htext).1 ((h.leads k).1 hk).1
    rcases hleast k hunmarked with rfl | hik
    · exact absurd (.refl pool k) hunreached
    · exact hik
  leads := by
    intro k
    rw [List.mem_cons, h.leads, leads_resolve hm htext hi hleast]
  spelled := .cons htext h.spelled
  size := h.size.trans (size_resolve m pool i)
  marked := by
    intro j
    rw [h.marked, has_resolve m hm htext]
    refine ⟨fun hj => ?_, Or.imp_left .inl⟩
    rcases hj with (hhas | hij) | hsome
    · exact .inl hhas
    · obtain ⟨text', htext'⟩ := spelled_of_reaches htext hij
      exact .inr (isSome_of_spelled htext')
    · exact .inr hsome

/-- In the end nothing is unmarked. -/
theorem not_unmarked (h : Listed pool m leading texts m') (i : Index) : ¬ Unmarked pool m' i := by
  intro hi
  obtain ⟨hsome, hhas⟩ := hi
  rw [(h.marked i).2 (.inr hsome)] at hhas
  cases hhas

end Listed

/-! ### The scan -/

theorem run_collectFrom_cons (n : Nat) (rest : List Nat) (found : List String) (m : Marks) :
    (collectFrom pool (n :: rest) found).run m =
      if m.has (.ofNat n) || (pool.get? (.ofNat n)).isNone then (collectFrom pool rest found).run m
      else match (resolve pool (.ofNat n)).run m with
        | (.ok text, m') => (collectFrom pool rest (text :: found)).run m'
        | (.error e, m') => (.error e, m') := by
  show run (if _ then collectFrom pool rest found else
    resolve pool (.ofNat n) >>= fun text => collectFrom pool rest (text :: found)) m = _
  split
  · rfl
  · rw [run_bind]
    rcases (resolve pool (.ofNat n)).run m with ⟨_ | _, m'⟩ <;> rfl

/-- An index is passed over unless it is unmarked. -/
theorem passed_iff : (m.has i || (pool.get? i).isNone) = true ↔ ¬ Unmarked pool m i := by
  unfold Unmarked
  cases m.has i <;> cases pool.get? i <;> simp

section Turn
variable {n : Nat} {rest : List Nat} {found : List String}

theorem run_collectFrom_of_not_unmarked (h : ¬ Unmarked pool m (.ofNat n)) :
    (collectFrom pool (n :: rest) found).run m = (collectFrom pool rest found).run m := by
  rw [run_collectFrom_cons, if_pos (passed_iff.2 h)]

theorem run_collectFrom_of_unmarked (h : Unmarked pool m (.ofNat n)) :
    (collectFrom pool (n :: rest) found).run m =
      match (resolve pool (.ofNat n)).run m with
      | (.ok text, m') => (collectFrom pool rest (text :: found)).run m'
      | (.error e, m') => (.error e, m') := by
  refine (run_collectFrom_cons n rest found m).trans (if_neg ?_)
  exact fun hpassed => passed_iff.1 hpassed h

theorem run_collectFrom_of_spelled (h : Unmarked pool m (.ofNat n)) (htext : Spelled pool (.ofNat n) text) :
    (collectFrom pool (n :: rest) found).run m =
      (collectFrom pool rest (text :: found)).run ((resolve pool (.ofNat n)).run m).2 := by
  have hrun : (resolve pool (.ofNat n)).run m = (.ok text, ((resolve pool (.ofNat n)).run m).2) :=
    Prod.ext (htext m) rfl
  rw [run_collectFrom_of_unmarked h, hrun]

theorem run_collectFrom_of_not_spelled (h : Unmarked pool m (.ofNat n))
    (hnot : ∀ text, ¬ Spelled pool (.ofNat n) text) :
    ∃ e m', (collectFrom pool (n :: rest) found).run m = (.error e, m') := by
  rw [run_collectFrom_of_unmarked h]
  rcases hrun : (resolve pool (.ofNat n)).run m with ⟨e | text, m'⟩
  · exact ⟨e, m', rfl⟩
  · exact absurd ((spelled_iff m).2 (by rw [hrun])) (hnot text)

end Turn

/-- A scan over ascending indices that miss no unmarked one. -/
theorem collectFrom_lists {ns : List Nat} (hordered : (ns.map UInt16.ofNat).Pairwise (· < ·))
    (hm : m.size = pool.count) (hmem : ∀ i, Unmarked pool m i → i ∈ ns.map UInt16.ofNat) (found : List String) :
    (∃ leading texts m', (collectFrom pool ns found).run m = (.ok (texts.reverse ++ found), m') ∧
      Listed pool m leading texts m' ∧ ∀ i, Unmarked pool m i → ∃ text, Spelled pool i text) ∨
    ∃ e m' i, (collectFrom pool ns found).run m = (.error e, m') ∧ Unmarked pool m i ∧
      ∀ text, ¬ Spelled pool i text := by
  induction ns generalizing m found with
  | nil =>
    have hnone : ∀ i, ¬ Unmarked pool m i := fun i hi => nomatch hmem i hi
    exact .inl ⟨[], [], m, rfl, .nil hnone, fun i hi => absurd hi (hnone i)⟩
  | cons n rest ih =>
    rw [List.map_cons, List.pairwise_cons] at hordered
    obtain ⟨hbefore, hrest⟩ := hordered
    have hsplit : ∀ i, Unmarked pool m i → i = .ofNat n ∨ i ∈ rest.map UInt16.ofNat :=
      fun i hi => List.mem_cons.1 (hmem i hi)
    by_cases hn : Unmarked pool m (.ofNat n)
    · by_cases htext : ∃ text, Spelled pool (.ofNat n) text
      · obtain ⟨text, htext⟩ := htext
        have hleast : ∀ j, Unmarked pool m j → j = .ofNat n ∨ .ofNat n < j :=
          fun j hj => (hsplit j hj).imp_right (hbefore j)
        have hunmarked : ∀ i, Unmarked pool ((resolve pool (.ofNat n)).run m).2 i ↔
            Unmarked pool m i ∧ ¬ pool.Reaches (.ofNat n) i := fun _ => unmarked_resolve hm htext
        have hmem' : ∀ i, Unmarked pool ((resolve pool (.ofNat n)).run m).2 i → i ∈ rest.map UInt16.ofNat := by
          intro i hi
          obtain ⟨hi, hunreached⟩ := (hunmarked i).1 hi
          exact (hsplit i hi).resolve_left fun heq => hunreached (heq ▸ .refl pool i)
        rw [run_collectFrom_of_spelled hn htext]
        obtain ⟨leading, texts, m', hrun, hlisted, hspelled⟩ | ⟨e, m', i, hrun, hi, hnot⟩ :=
          ih hrest ((size_resolve ..).trans hm) hmem' (text :: found)
        · refine .inl ⟨.ofNat n :: leading, text :: texts, m', by simpa using hrun,
            .cons hm htext hn hleast hlisted, fun i hi => ?_⟩
          by_cases hreached : pool.Reaches (.ofNat n) i
          · exact spelled_of_reaches htext hreached
          · exact hspelled i ((hunmarked i).2 ⟨hi, hreached⟩)
        · exact .inr ⟨e, m', i, hrun, ((hunmarked i).1 hi).1, hnot⟩
      · have hnot : ∀ text, ¬ Spelled pool (.ofNat n) text := fun text h => htext ⟨text, h⟩
        obtain ⟨e, m', hrun⟩ := run_collectFrom_of_not_spelled hn hnot
        exact .inr ⟨e, m', _, hrun, hn, hnot⟩
    · rw [run_collectFrom_of_not_unmarked hn]
      exact ih hrest hm (fun i hi => (hsplit i hi).resolve_left fun heq => hn (heq ▸ hi)) found

/-! ### The whole pool -/

/-- The numbers that the scan goes through, up to the last one that is an index. -/
def firstRound (pool : Pool) : List Nat := List.range' 1 (min (pool.count - 1) 65535)

theorem firstRound_ordered (pool : Pool) : ((firstRound pool).map UInt16.ofNat).Pairwise (· < ·) := by
  unfold firstRound
  rw [List.pairwise_map]
  refine (List.pairwise_lt_range' ..).imp_of_mem fun {a b} _ hb h => ?_
  have hb' := List.mem_range'_1.1 hb
  have hsize : UInt16.size = 65536 := rfl
  exact (UInt16.ofNat_lt_iff_lt (by omega) (by omega)).2 h

theorem mem_firstRound (h : (pool.get? i).isSome = true) : i ∈ (firstRound pool).map UInt16.ofNat := by
  obtain ⟨k, hk⟩ := Option.isSome_iff_exists.1 h
  have hlt := Pool.lt_count_of_get? hk
  have hindex := i.toNat_lt
  have hne : i.toNat ≠ 0 := by
    intro hzero
    obtain rfl : i = 0 := UInt16.toNat_inj.1 hzero
    cases hk
  refine List.mem_map.2 ⟨i.toNat, List.mem_range'_1.2 ?_, UInt16.ofNat_toNat⟩
  omega

theorem run_collectFrom_append (ns later : List Nat) (found : List String) (m : Marks) :
    (collectFrom pool (ns ++ later) found).run m =
      match (collectFrom pool ns found).run m with
      | (.ok found', m') => (collectFrom pool later found').run m'
      | (.error e, m') => (.error e, m') := by
  induction ns generalizing found m with
  | nil => rfl
  | cons n rest ih =>
    rw [List.cons_append]
    by_cases hn : Unmarked pool m (.ofNat n)
    · rw [run_collectFrom_of_unmarked hn, run_collectFrom_of_unmarked hn]
      rcases (resolve pool (.ofNat n)).run m with ⟨e | text, m'⟩
      · rfl
      · exact ih (text :: found) m'
    · rw [run_collectFrom_of_not_unmarked hn, run_collectFrom_of_not_unmarked hn, ih]

theorem run_collectFrom_of_marked (h : ∀ i, ¬ Unmarked pool m i) (ns : List Nat) (found : List String) :
    (collectFrom pool ns found).run m = (.ok found, m) := by
  induction ns with
  | nil => rfl
  | cons n rest ih => rw [run_collectFrom_of_not_unmarked (h _), ih]

/-- The scan of a pool. In a pool with more slots than there are indices it comes to the same
indices again, and finds nothing unmarked there. -/
theorem collect_lists (hm : m.size = pool.count) :
    (∃ leading literals m', (collect pool).run m = (.ok literals, m') ∧ Listed pool m leading literals m' ∧
      ∀ i, Unmarked pool m i → ∃ text, Spelled pool i text) ∨
    ∃ e m' i, (collect pool).run m = (.error e, m') ∧ Unmarked pool m i ∧ ∀ text, ¬ Spelled pool i text := by
  have hrounds : ∃ later, List.range' 1 (pool.count - 1) = firstRound pool ++ later := by
    refine ⟨List.range' (1 + min (pool.count - 1) 65535) (pool.count - 1 - min (pool.count - 1) 65535), ?_⟩
    unfold firstRound
    rw [List.range'_append_1]
    congr 1
    omega
  obtain ⟨later, hlater⟩ := hrounds
  unfold collect
  rw [run_bind, hlater, run_collectFrom_append]
  obtain ⟨leading, texts, m', hrun, hlisted, hspelled⟩ | ⟨e, m', i, hrun, hi, hnot⟩ :=
    collectFrom_lists (firstRound_ordered pool) hm (fun i hi => mem_firstRound hi.1) []
  · rw [hrun]
    dsimp only
    rw [run_collectFrom_of_marked hlisted.not_unmarked]
    refine .inl ⟨leading, texts, m', ?_, hlisted, hspelled⟩
    simp only [List.append_nil, List.reverse_reverse]
    rfl
  · rw [hrun]
    exact .inr ⟨e, m', i, rfl, hi, hnot⟩

/-- **Collecting succeeds exactly when every unmarked constant can be spelled, and then lists the
texts of the leading indices**, in ascending order and each once; in the end every constant is
marked, and nothing beside them and what was marked before. -/
theorem collect_lists_leading (pool : Pool) (m : Marks) (hm : m.size = pool.count) :
    ((∃ literals, ((collect pool).run m).1 = .ok literals) ↔
      ∀ i, Unmarked pool m i → ∃ text, Spelled pool i text) ∧
    ∀ literals, ((collect pool).run m).1 = .ok literals →
      ∃ leading, Listed pool m leading literals ((collect pool).run m).2 := by
  obtain ⟨leading, literals, m', hrun, hlisted, hspelled⟩ | ⟨e, m', i, hrun, hi, hnot⟩ := collect_lists hm
  · rw [hrun]
    refine ⟨⟨fun _ => hspelled, fun _ => ⟨literals, rfl⟩⟩, fun literals' h => ?_⟩
    obtain rfl := Except.ok.inj h
    exact ⟨leading, hlisted⟩
  · rw [hrun]
    refine ⟨⟨fun h => ?_, fun h => ?_⟩, nofun⟩
    · obtain ⟨_, h⟩ := h
      cases h
    · obtain ⟨text, htext⟩ := h i hi
      exact absurd htext (hnot text)

/-- A pool with references forwards and backwards. -/
def tangledPool : Pool :=
  ⟨#[some (.string 4), some (.integer 7), some (.classRef 4), some (.utf8 "x"), some (.utf8 "y"),
    some (.nameAndType 4 7), some (.utf8 "I")]⟩

/-- The texts at the indices 4 and 7 are reached from smaller ones, and the one at 5 is marked before. -/
theorem tangledPool_lists_leading :
    ((Marks.none 8).mark 5).size = tangledPool.count ∧
    ((collect tangledPool).run ((Marks.none 8).mark 5)).1 = .ok ["x", "7", "x", "int x"] ∧
    (∀ i, Unmarked tangledPool ((Marks.none 8).mark 5) i → ∃ text, Spelled tangledPool i text) ∧
    ∃ leading, Listed tangledPool ((Marks.none 8).mark 5) leading ["x", "7", "x", "int x"]
      ((collect tangledPool).run ((Marks.none 8).mark 5)).2 := by
  have hsize : ((Marks.none 8).mark 5).size = tangledPool.count := by decide
  have hrun : ((collect tangledPool).run ((Marks.none 8).mark 5)).1 = .ok ["x", "7", "x", "int x"] := by
    decide +kernel
  obtain ⟨hsucceeds, hlists⟩ := collect_lists_leading tangledPool _ hsize
  exact ⟨hsize, hrun, hsucceeds.1 ⟨_, hrun⟩, hlists _ hrun⟩

end ClassAtlas.Xref.Resolver
