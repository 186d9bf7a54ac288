import ClassAtlas.Proofs.Index.Consistency

/-! What is left behind by a path that is no text.

Posting lists keep paths as mended, so a path that is no text is in none of them. Taking it out finds
nothing to take out (`remove_leaves`), while each time it is put in, the list under each term of its
document grows by one (`length_addPostings`). This is so in every store whose lists can be read. -/
namespace ClassAtlas.Index

namespace Bucket

/-- In a bucket in order, what is found under a key is what stands there. -/
theorem get?_eq_some_iff {b : Bucket α} (h : b.keys.Pairwise (· < ·)) (key : RawText) (a : α) :
    b.get? key = some a ↔ (key, a) ∈ b.entries := by
  simp only [keys, get?] at h ⊢
  generalize b.entries = es at h ⊢
  induction es with
  | nil => simp [lookup]
  | cons e rest ih =>
    obtain ⟨k, a'⟩ := e
    obtain ⟨hhead, hrest⟩ := List.pairwise_cons.1 h
    by_cases hk : k = key
    · subst hk
      have hnot : (k, a) ∉ rest := fun hm =>
        RawText.lt_irrefl k (hhead k (List.mem_map_of_mem (f := (·.1)) hm))
      simp [lookup, hnot, eq_comm]
    · simp [lookup, hk, Ne.symm hk, ih hrest]

/-- Two buckets in order that answer alike are one. -/
theorem eq_of_get? {b b' : Bucket α} (h : b.keys.Pairwise (· < ·)) (h' : b'.keys.Pairwise (· < ·))
    (hget : ∀ key, b.get? key = b'.get? key) : b = b' := by
  have hord : b.entries.Pairwise fun x y => x.1 < y.1 := List.pairwise_map.1 h
  have hord' : b'.entries.Pairwise fun x y => x.1 < y.1 := List.pairwise_map.1 h'
  have hnodup : ∀ {es : List (RawText × α)}, es.Pairwise (fun x y => x.1 < y.1) → es.Nodup := by
    intro es hes
    refine hes.imp ?_
    rintro x _ hlt rfl
    exact RawText.lt_irrefl x.1 hlt
  have hmem : ∀ e, e ∈ b.entries ↔ e ∈ b'.entries := by
    rintro ⟨key, a⟩
    rw [← get?_eq_some_iff h, ← get?_eq_some_iff h', hget]
  have hperm : b.entries.Perm b'.entries :=
    (List.perm_ext_iff_of_nodup (hnodup hord) (hnodup hord')).2 hmem
  have heq : b.entries = b'.entries := by
    refine hperm.eq_of_pairwise (fun x y _ _ hxy hyx => ?_) hord hord'
    exact absurd (RawText.lt_trans hxy hyx) (RawText.lt_irrefl x.1)
  cases b
  cases b'
  exact congrArg Bucket.mk heq

end Bucket

namespace Store

variable {s s' : Store} {m : Contents} {b b' : Bucket RawText} {path : RawText}

theorem eq_of_buckets (hdocs : s.docs = s'.docs) (hbuckets : ∀ f, s.bucket f = s'.bucket f) : s = s' := by
  have hdefs := hbuckets .defs
  have hrefs := hbuckets .refs
  have hfull := hbuckets .full
  cases s
  cases s'
  simp_all [bucket]

theorem HasDocuments.docs_eq (h : s.HasDocuments m) (h' : s'.HasDocuments m) : s.docs = s'.docs :=
  Bucket.eq_of_get? h.ordered h'.ordered fun p => (h.docs p).trans (h'.docs p).symm

/-! ### Taking out -/

theorem removePostings_of_not_isText (hb : b.Readable) (hpath : ¬ path.IsText) (ts : List RawText) :
    ts.foldlM (removePosting path) b = .ok b := by
  induction ts with
  | nil => rfl
  | cons t ts ih =>
    obtain ⟨found, hfound⟩ := hb t
    rw [List.foldlM_cons, removePosting_of_not_isText hfound hpath]
    exact ih

/-- Removing a path that is no text leaves all postings. -/
theorem remove_leaves (h : s.Holds m) (hpath : ¬ path.IsText) :
    ∃ s', s.remove path = .ok s' ∧ s'.Holds (m.set path none) ∧ ∀ f, s'.bucket f = s.bucket f := by
  obtain ⟨s', hs', hdocs, hsame⟩ := h.toHasDocuments.remove (P := fun f b => b = s.bucket f)
    (fun old _ f => ⟨_, removePostings_of_not_isText (h.readable f) hpath (old.termKeys f), rfl⟩) (fun _ _ => rfl)
  exact ⟨s', hs', ⟨hdocs, fun f => (hsame f).symm ▸ h.readable f⟩, hsame⟩

/-! ### Putting in -/

/-- The number of paths under a term. -/
def lengthUnder (b : Bucket RawText) (t : RawText) : Nat :=
  match postings b t with
  | .ok ps => (ps.getD []).length
  | .error _ => 0

theorem lengthUnder_of_ok {t : RawText} {ps : Postings} (h : postings b t = .ok ps) :
    lengthUnder b t = (ps.getD []).length := by
  rw [lengthUnder, h]

theorem length_insertPath {paths : List RawText} (h : paths[place paths path]? ≠ some path) :
    (insertPath path paths).length = paths.length + 1 := by
  rw [insertPath, if_neg h, List.length_append, List.length_cons, List.length_take, List.length_drop]
  omega

theorem length_addPosting {term : RawText} (hpath : ¬ path.IsText) (h : addPosting path b term = .ok b')
    (t : RawText) : lengthUnder b' t = lengthUnder b t + if term = t then 1 else 0 := by
  obtain ⟨found, hfound⟩ := postings_of_addPosting h
  rw [addPosting_of_not_isText hfound hpath] at h
  obtain rfl := Except.ok.inj h
  have hput := postings_putPostings b term t (insertPath path (found.getD []))
  by_cases ht : term = t
  · subst ht
    rw [if_pos rfl] at hput
    rw [lengthUnder_of_ok hput, lengthUnder_of_ok hfound, if_pos rfl, Option.getD_some, List.length_map,
      length_insertPath (getElem?_place_ne hfound hpath)]
  · rw [if_neg ht] at hput
    rw [lengthUnder, hput, if_neg ht]
    rfl

/-- A list grows by one each time the path is put in under its term. -/
theorem length_addPostings {ts : List RawText} (hpath : ¬ path.IsText)
    (h : ts.foldlM (addPosting path) b = .ok b') (t : RawText) :
    lengthUnder b' t = lengthUnder b t + ts.count t := by
  induction ts generalizing b with
  | nil =>
    obtain rfl := pure_eq_ok.1 h
    rfl
  | cons term ts ih =>
    rw [List.foldlM_cons] at h
    obtain ⟨b₁, hfirst, hrest⟩ := bind_eq_ok.1 h
    rw [ih hrest, length_addPosting hpath hfirst, List.count_cons]
    simp only [beq_iff_eq]
    omega

/-- Storing under a path that is no text adds to the postings that were there. -/
theorem put_leaves (h : s.Holds m) {d : Document} (hpath : ¬ d.path.IsText) (hkey : IsKey d.path) :
    ∃ s', s.put d = .ok s' ∧ s'.Holds (m.set d.path (some d)) ∧
      ∀ f, (d.termKeys f).foldlM (addPosting d.path) (s.bucket f) = .ok (s'.bucket f) := by
  obtain ⟨s₁, hs₁, hholds, hsame⟩ := remove_leaves h hpath
  obtain ⟨s₂, hs₂, hdocs, hadd⟩ := hholds.toHasDocuments.add hkey
    (P := fun f b => (d.termKeys f).foldlM (addPosting d.path) (s.bucket f) = .ok b ∧ b.Readable) fun f => by
      obtain ⟨b, hb, hread⟩ := (h.readable f).foldlM (fun b hb t => hb.addPosting d.path t) (d.termKeys f)
      exact ⟨b, hsame f ▸ hb, hb, hread⟩
  rw [Contents.set_set] at hdocs
  refine ⟨s₂, ?_, ⟨hdocs, fun f => (hadd f).2⟩, fun f => (hadd f).1⟩
  rw [put_of_remove hs₁, hs₂]
  rfl

end Store
end ClassAtlas.Index
