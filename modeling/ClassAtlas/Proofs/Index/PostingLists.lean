import ClassAtlas.Index.Store
import ClassAtlas.Proofs.Index.Records
import ClassAtlas.Proofs.Success

/-! Posting lists and buckets in order.

On a list in order, halving ends at the one place where a path can stand: all before it is
smaller and nothing from it on is (`place_bounds`). So the list falls into a smaller part, the
path itself or nothing, and a greater part (`Split`), and adding or removing the path joins
the two parts with it or without it. A bucket keeps its keys in order in the same way.

The lists that a bucket has are read from its records. So they have only texts in them
(`isText_of_mem_postings`), and a path that is none is never found and never taken out
(`removePosting_of_not_isText`). -/
namespace ClassAtlas.Index
namespace Store

/-! ### Halving -/

/-- The place of a path lies in `lo`, …, `hi`. -/
structure Bounds (paths : List RawText) (path : RawText) (lo hi : Nat) : Prop where
  le : lo ≤ hi
  inside : hi ≤ paths.length
  below : ∀ i q, i < lo → paths[i]? = some q → q < path
  above : ∀ i q, hi ≤ i → paths[i]? = some q → ¬ q < path

theorem bounds_all (paths : List RawText) (path : RawText) : Bounds paths path 0 paths.length where
  le := Nat.zero_le _
  inside := Nat.le_refl _
  below := fun i _ hi _ => absurd hi (Nat.not_lt_zero i)
  above := fun i q hi hq => by
    rw [List.getElem?_eq_none hi] at hq
    cases hq

theorem lt_of_index_lt {paths : List RawText} (hs : paths.Pairwise (· < ·)) {i j : Nat} {p q : RawText}
    (hij : i < j) (hp : paths[i]? = some p) (hq : paths[j]? = some q) : p < q := by
  obtain ⟨hi, rfl⟩ := List.getElem?_eq_some_iff.1 hp
  obtain ⟨hj, rfl⟩ := List.getElem?_eq_some_iff.1 hq
  exact List.pairwise_iff_getElem.1 hs i j hi hj hij

/-- A middle that is smaller than the path raises the lower end. -/
theorem Bounds.upper {paths : List RawText} {path : RawText} {lo hi m : Nat}
    (h : Bounds paths path lo hi) (hs : paths.Pairwise (· < ·)) (hm : m < hi)
    (hlt : paths.getD m .empty < path) : Bounds paths path (m + 1) hi := by
  have hlen : m < paths.length := Nat.lt_of_lt_of_le hm h.inside
  have hmid : paths[m]? = some (paths.getD m .empty) := by
    simp [List.getElem?_eq_getElem hlen]
  refine ⟨hm, h.inside, fun i q hi hq => ?_, h.above⟩
  rcases Nat.lt_or_eq_of_le (Nat.le_of_lt_succ hi) with hi | rfl
  · exact RawText.lt_trans (lt_of_index_lt hs hi hq hmid) hlt
  · rw [hmid, Option.some.injEq] at hq
    exact hq ▸ hlt

/-- A middle that is not smaller than the path lowers the upper end. -/
theorem Bounds.lower {paths : List RawText} {path : RawText} {lo hi m : Nat}
    (h : Bounds paths path lo hi) (hs : paths.Pairwise (· < ·)) (hlo : lo ≤ m) (hm : m < hi)
    (hge : ¬ paths.getD m .empty < path) : Bounds paths path lo m := by
  have hlen : m < paths.length := Nat.lt_of_lt_of_le hm h.inside
  have hmid : paths[m]? = some (paths.getD m .empty) := by
    simp [List.getElem?_eq_getElem hlen]
  refine ⟨hlo, Nat.le_of_lt hlen, h.below, fun i q hi hq => ?_⟩
  rcases Nat.lt_or_eq_of_le hi with hi | rfl
  · exact fun hlt => hge (RawText.lt_trans (lt_of_index_lt hs hi hmid hq) hlt)
  · rw [hmid, Option.some.injEq] at hq
    exact hq ▸ hge

theorem placeBetween_bounds {paths : List RawText} {path : RawText} {lo hi : Nat}
    (hs : paths.Pairwise (· < ·)) (h : Bounds paths path lo hi) :
    Bounds paths path (placeBetween paths path lo hi) (placeBetween paths path lo hi) := by
  fun_induction placeBetween paths path lo hi with
  | case1 lo hi hlt hsmall ih => exact ih (h.upper hs (by omega) hsmall)
  | case2 lo hi hlt hgreat ih => exact ih (h.lower hs (by omega) (by omega) hgreat)
  | case3 lo hi hnot =>
    have he : hi = lo := Nat.le_antisymm (Nat.le_of_not_lt hnot) h.le
    exact he ▸ h

theorem place_bounds {paths : List RawText} (hs : paths.Pairwise (· < ·)) (path : RawText) :
    Bounds paths path (place paths path) (place paths path) :=
  placeBetween_bounds hs (bounds_all paths path)

/-! ### The parts of a list around a path -/

/-- A list in order as what is smaller than a path, the path or nothing, and what is greater. -/
structure Split (paths : List RawText) (path : RawText) (smaller greater : List RawText) : Prop where
  below : ∀ q ∈ smaller, q < path
  above : ∀ q ∈ greater, path < q
  placed : place paths path = smaller.length
  parts : paths = smaller ++ greater ∨ paths = smaller ++ path :: greater

theorem exists_split {paths : List RawText} (hs : paths.Pairwise (· < ·)) (path : RawText) :
    ∃ smaller greater, Split paths path smaller greater := by
  have hb := place_bounds hs path
  have hlen : (paths.take (place paths path)).length = place paths path :=
    List.length_take_of_le hb.inside
  have hsmaller : ∀ q ∈ paths.take (place paths path), q < path := by
    intro q hq
    obtain ⟨i, hi, he⟩ := List.mem_take_iff_getElem.1 hq
    exact hb.below i q (by omega) (List.getElem?_eq_some_iff.2 ⟨by omega, he⟩)
  by_cases hthere : paths[place paths path]? = some path
  · refine ⟨paths.take (place paths path), paths.drop (place paths path + 1), hsmaller, ?_, hlen.symm, .inr ?_⟩
    · intro q hq
      obtain ⟨i, hi, he⟩ := List.mem_drop_iff_getElem.1 hq
      exact lt_of_index_lt hs (by omega) hthere (List.getElem?_eq_some_iff.2 ⟨_, he⟩)
    · obtain ⟨hlt, he⟩ := List.getElem?_eq_some_iff.1 hthere
      have hdrop := List.drop_eq_getElem_cons hlt
      rw [he] at hdrop
      rw [← hdrop, List.take_append_drop]
  · refine ⟨paths.take (place paths path), paths.drop (place paths path), hsmaller, ?_, hlen.symm, .inl ?_⟩
    · intro q hq
      obtain ⟨i, hi, he⟩ := List.mem_drop_iff_getElem.1 hq
      have hq? : paths[place paths path + i]? = some q := List.getElem?_eq_some_iff.2 ⟨_, he⟩
      apply RawText.lt_of_not_lt_of_ne (hb.above _ q (by omega) hq?)
      rintro rfl
      -- the path stands further on, so what stands at its place is smaller
      cases i with
      | zero => exact hthere hq?
      | succ i =>
        have hlt : place paths q < paths.length := by omega
        have hfirst := List.getElem?_eq_getElem hlt
        exact hb.above _ _ (Nat.le_refl _) hfirst (lt_of_index_lt hs (by omega) hfirst hq?)
    · rw [List.take_append_drop]

namespace Split

variable {paths smaller greater : List RawText} {path : RawText}

theorem not_mem (h : Split paths path smaller greater) : path ∉ smaller ++ greater := by
  intro hm
  rcases List.mem_append.1 hm with hm | hm
  · exact RawText.lt_irrefl _ (h.below path hm)
  · exact RawText.lt_irrefl _ (h.above path hm)

/-- Whether a list in order has a path is seen at the path's place. -/
theorem getElem?_place (h : Split paths path smaller greater) :
    paths[place paths path]? = some path ↔ path ∈ paths := by
  constructor
  · exact List.mem_of_getElem?
  · intro hm
    rw [h.placed]
    rcases h.parts with rfl | rfl
    · exact absurd hm h.not_mem
    · rw [List.getElem?_append_right (Nat.le_refl _), Nat.sub_self]
      rfl

theorem eq_of_mem (h : Split paths path smaller greater) (hm : path ∈ paths) :
    paths = smaller ++ path :: greater := by
  rcases h.parts with rfl | rfl
  · exact absurd hm h.not_mem
  · rfl

theorem eq_of_not_mem (h : Split paths path smaller greater) (hm : path ∉ paths) :
    paths = smaller ++ greater := by
  rcases h.parts with rfl | rfl
  · rfl
  · exact absurd (List.mem_append_right smaller (List.mem_cons_self ..)) hm

theorem insertPath_eq (h : Split paths path smaller greater) :
    insertPath path paths = smaller ++ path :: greater := by
  unfold insertPath
  by_cases hm : path ∈ paths
  · rw [if_pos (h.getElem?_place.2 hm)]
    exact h.eq_of_mem hm
  · rw [if_neg (fun he => hm (h.getElem?_place.1 he)), h.placed]
    obtain rfl := h.eq_of_not_mem hm
    rw [List.take_left, List.drop_left]

theorem erasePath_eq (h : Split paths path smaller greater) :
    erasePath path paths = smaller ++ greater := by
  unfold erasePath
  by_cases hm : path ∈ paths
  · rw [if_pos (h.getElem?_place.2 hm), h.placed]
    obtain rfl := h.eq_of_mem hm
    rw [List.eraseIdx_append_of_length_le (Nat.le_refl _), Nat.sub_self]
    rfl
  · rw [if_neg (fun he => hm (h.getElem?_place.1 he))]
    exact h.eq_of_not_mem hm

end Split

/-! ### Adding and removing a path -/

section Update
variable {paths : List RawText} (hs : paths.Pairwise (· < ·)) (path : RawText)
include hs

theorem getElem?_place : paths[place paths path]? = some path ↔ path ∈ paths := by
  obtain ⟨smaller, greater, h⟩ := exists_split hs path
  exact h.getElem?_place

theorem mem_insertPath (q : RawText) : q ∈ insertPath path paths ↔ q ∈ paths ∨ q = path := by
  obtain ⟨smaller, greater, h⟩ := exists_split hs path
  rw [h.insertPath_eq]
  rcases h.parts with rfl | rfl <;> grind

theorem mem_erasePath (q : RawText) : q ∈ erasePath path paths ↔ q ∈ paths ∧ q ≠ path := by
  obtain ⟨smaller, greater, h⟩ := exists_split hs path
  have hnot := h.not_mem
  rw [h.erasePath_eq]
  rcases h.parts with rfl | rfl <;> grind

theorem insertPath_ordered : (insertPath path paths).Pairwise (· < ·) := by
  obtain ⟨smaller, greater, h⟩ := exists_split hs path
  rw [h.insertPath_eq]
  have hall : (smaller ++ greater).Pairwise (· < ·) := by
    rcases h.parts with rfl | rfl
    · exact hs
    · exact hs.sublist ((List.sublist_cons_self path greater).append_left smaller)
  obtain ⟨hl, hr, hlr⟩ := List.pairwise_append.1 hall
  refine List.pairwise_append.2 ⟨hl, List.pairwise_cons.2 ⟨h.above, hr⟩, fun a ha b hb => ?_⟩
  rcases List.mem_cons.1 hb with rfl | hb
  · exact h.below a ha
  · exact hlr a ha b hb

theorem erasePath_ordered : (erasePath path paths).Pairwise (· < ·) := by
  simp only [erasePath]
  split
  · exact hs.sublist (List.eraseIdx_sublist ..)
  · exact hs

end Update

end Store

/-! ### Buckets -/

namespace Bucket

/-- A key is kept exactly when something is found under it. -/
theorem mem_keys (b : Bucket α) (key : RawText) : key ∈ b.keys ↔ ∃ a, b.get? key = some a := by
  simp only [keys, get?]
  induction b.entries with
  | nil => simp [lookup]
  | cons e rest ih =>
    obtain ⟨k, a⟩ := e
    by_cases h : k = key
    · simp [lookup, h]
    · simp [lookup, h, ih, Ne.symm h]

theorem mem_keys_insertInto {key k : RawText} {value : α} {es : List (RawText × α)}
    (h : k ∈ (insertInto key value es).map (·.1)) : k = key ∨ k ∈ es.map (·.1) := by
  induction es with
  | nil => simpa [insertInto] using h
  | cons e rest ih =>
    simp only [insertInto] at h
    split at h
    · simp_all
    · split at h
      · simpa using h
      · rcases List.mem_cons.1 h with rfl | h
        · exact .inr (List.mem_cons_self ..)
        · exact (ih h).imp_right (List.mem_cons_of_mem _)

theorem insert_ordered {b : Bucket α} (h : b.keys.Pairwise (· < ·)) (key : RawText) (value : α) :
    (b.insert key value).keys.Pairwise (· < ·) := by
  simp only [keys, insert] at h ⊢
  generalize b.entries = es at h ⊢
  induction es with
  | nil => simp [insertInto]
  | cons e rest ih =>
    obtain ⟨hhead, hrest⟩ := List.pairwise_cons.1 h
    simp only [insertInto]
    split
    · rename_i he
      exact List.pairwise_cons.2 ⟨he ▸ hhead, hrest⟩
    · rename_i hne
      split
      · rename_i hlt
        refine List.pairwise_cons.2 ⟨fun k hk => ?_, h⟩
        rcases List.mem_cons.1 hk with rfl | hk
        · exact hlt
        · exact RawText.lt_trans hlt (hhead k hk)
      · rename_i hnot
        refine List.pairwise_cons.2 ⟨fun k hk => ?_, ih hrest⟩
        rcases mem_keys_insertInto hk with rfl | hk
        · exact RawText.lt_of_not_lt_of_ne hnot hne
        · exact hhead k hk

theorem erase_ordered {b : Bucket α} (h : b.keys.Pairwise (· < ·)) (key : RawText) :
    (b.erase key).keys.Pairwise (· < ·) :=
  h.sublist (List.filter_sublist.map _)

end Bucket

/-! ### Lists in a bucket -/

namespace Store

variable {b b' : Bucket RawText} {path term t : RawText} {found : Postings}

theorem isText_of_mem_postings (h : postings b term = .ok found) : ∀ p ∈ found.getD [], p.IsText := by
  unfold postings at h
  cases hget : b.get? term with
  | none =>
    rw [hget] at h
    obtain rfl := Except.ok.inj h
    simp
  | some record =>
    rw [hget] at h
    exact Postings.isText_of_ofRecord (mapError_eq_ok.1 h)

/-- Texts are read as they were written. -/
theorem map_mended_of_isText {paths : List RawText} (h : ∀ p ∈ paths, p.IsText) : paths.map RawText.mended = paths :=
  (List.map_congr_left fun p hp => (h p hp).mended).trans (List.map_id paths)

theorem postings_putPostings (b : Bucket RawText) (term t : RawText) (paths : List RawText) :
    postings (putPostings b term paths) t =
      if term = t then .ok (some (paths.map RawText.mended)) else postings b t := by
  unfold postings putPostings
  rw [Bucket.get?_insert]
  by_cases h : term = t
  · rw [if_pos h, if_pos h]
    show (Postings.ofRecord _).mapError _ = _
    rw [Postings.ofRecord_toRecord]
    rfl
  · rw [if_neg h, if_neg h]

theorem postings_erase (b : Bucket RawText) (term t : RawText) :
    postings (b.erase term) t = if term = t then .ok none else postings b t := by
  unfold postings
  rw [Bucket.get?_erase]
  by_cases h : term = t
  · rw [if_pos h, if_pos h]
  · rw [if_neg h, if_neg h]

/-- What adding a path comes to. -/
theorem addPosting_eq (h : postings b term = .ok found) :
    addPosting path b term = .ok (if (found.getD [])[place (found.getD []) path]? = some path then b
      else putPostings b term (insertPath path (found.getD []))) := by
  unfold addPosting
  rw [h]
  show (if _ then _ else _) = _
  split <;> rfl

/-- What removing a path comes to. -/
theorem removePosting_eq (h : postings b term = .ok found) :
    removePosting path b term = .ok (if (found.getD [])[place (found.getD []) path]? = some path then
        if erasePath path (found.getD []) = [] then b.erase term
        else putPostings b term (erasePath path (found.getD []))
      else b) := by
  unfold removePosting
  rw [h]
  show (if _ then _ else _) = _
  split
  · split
    · rename_i hnone
      rw [if_pos hnone]
      rfl
    · rename_i hsome
      rw [if_neg hsome]
      rfl
  · rfl

theorem postings_of_addPosting (h : addPosting path b term = .ok b') : ∃ found, postings b term = .ok found := by
  obtain ⟨found, hfound, -⟩ := bind_eq_ok.1 h
  exact ⟨found, hfound⟩

theorem postings_of_removePosting (h : removePosting path b term = .ok b') :
    ∃ found, postings b term = .ok found := by
  obtain ⟨found, hfound, -⟩ := bind_eq_ok.1 h
  exact ⟨found, hfound⟩

theorem getElem?_place_ne (h : postings b term = .ok found) (hpath : ¬ path.IsText) :
    (found.getD [])[place (found.getD []) path]? ≠ some path :=
  fun hthere => hpath (isText_of_mem_postings h path (List.mem_of_getElem? hthere))

/-- A path that is no text is nowhere to be taken out. -/
theorem removePosting_of_not_isText (h : postings b term = .ok found) (hpath : ¬ path.IsText) :
    removePosting path b term = .ok b := by
  rw [removePosting_eq h, if_neg (getElem?_place_ne h hpath)]

/-- A path that is no text is put in each time. -/
theorem addPosting_of_not_isText (h : postings b term = .ok found) (hpath : ¬ path.IsText) :
    addPosting path b term = .ok (putPostings b term (insertPath path (found.getD []))) := by
  rw [addPosting_eq h, if_neg (getElem?_place_ne h hpath)]

end Store
end ClassAtlas.Index
