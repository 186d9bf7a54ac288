import ClassAtlas.Proofs.Index.PostingLists
import Mathlib.Data.List.Nodup

/-! What a store holds, and what updates do to it.

A store *holds* a choice of documents by path (`Store.Holds`) when its records are those of the documents
and its posting lists can be read. Removing and adding documents never fails on such a store but for a path
that cannot be a key, and leaves a store that holds the changed choice (`remove_holds`, `put_holds`).

It *indexes* them (`Store.Indexes`) when, besides, their paths are texts and each term of each field has
exactly the paths whose documents have the term, in order, and no term is kept without a path
(`Bucket.Lists`). Removing any path keeps that, and so does adding a document whose path is a text
(`remove_indexes`, `put_indexes`). -/
namespace ClassAtlas.Index

/-! ### Buckets of posting lists -/

/-- The bucket has under each term the paths related to it, in order, and no term without any. -/
structure Bucket.Lists (b : Bucket RawText) (R : RawText → RawText → Prop) : Prop where
  ordered : b.keys.Pairwise (· < ·)
  text : ∀ t p, R t p → p.IsText
  absent : ∀ t, b.get? t = none → ∀ p, ¬ R t p
  present : ∀ t record, b.get? t = some record →
    ∃ ps, record = Postings.toRecord (some ps) ∧ ps ≠ [] ∧ ps.Pairwise (· < ·) ∧ ∀ p, p ∈ ps ↔ R t p

namespace Bucket.Lists

variable {b : Bucket RawText} {R R' : RawText → RawText → Prop}

theorem congr (h : b.Lists R) (he : ∀ t p, R t p ↔ R' t p) : b.Lists R' := by
  obtain rfl : R = R' := funext fun t => funext fun p => propext (he t p)
  exact h

/-- In a bucket that differs at one term only, the lists are as they were at every other term. -/
theorem change (h : b.Lists R) {b' : Bucket RawText} {t : RawText} (hkeys : b'.keys.Pairwise (· < ·))
    (hget : ∀ t', t' ≠ t → b'.get? t' = b.get? t') (hother : ∀ t', t' ≠ t → ∀ p, R' t' p ↔ R t' p)
    (htext : ∀ p, R' t p → p.IsText) (habsent : b'.get? t = none → ∀ p, ¬ R' t p)
    (hpresent : ∀ record, b'.get? t = some record →
      ∃ ps, record = Postings.toRecord (some ps) ∧ ps ≠ [] ∧ ps.Pairwise (· < ·) ∧ ∀ p, p ∈ ps ↔ R' t p) :
    b'.Lists R' where
  ordered := hkeys
  text := by
    intro t' p hp
    by_cases he : t' = t
    · exact htext p (he ▸ hp)
    · exact h.text t' p ((hother t' he p).1 hp)
  absent := by
    intro t' ht' p
    by_cases he : t' = t
    · exact he ▸ habsent (he ▸ ht') p
    · rw [hother t' he]
      exact h.absent t' (hget t' he ▸ ht') p
  present := by
    intro t' record ht'
    by_cases he : t' = t
    · subst he
      exact hpresent record ht'
    · rw [hget t' he] at ht'
      obtain ⟨ps, hps, hne, hord, hmem⟩ := h.present t' record ht'
      exact ⟨ps, hps, hne, hord, fun p => (hmem p).trans (hother t' he p).symm⟩

/-- Putting a list under a term changes the relation at that term only. -/
theorem putPostings (h : b.Lists R) {t : RawText} {ps : List RawText} (hne : ps ≠ [])
    (hps : ps.Pairwise (· < ·)) (htext : ∀ p ∈ ps, p.IsText) (hmem : ∀ p, p ∈ ps ↔ R' t p)
    (hother : ∀ t', t' ≠ t → ∀ p, R' t' p ↔ R t' p) :
    (Store.putPostings b t ps).Lists R' := by
  refine h.change (insert_ordered h.ordered _ _) (fun t' he => ?_) hother (fun p hp => htext p ((hmem p).2 hp))
    (fun hnone => ?_) fun record hrecord => ?_
  · rw [Store.putPostings, get?_insert, if_neg (Ne.symm he)]
  · rw [Store.putPostings, get?_insert, if_pos rfl] at hnone
    cases hnone
  · rw [Store.putPostings, get?_insert, if_pos rfl] at hrecord
    exact ⟨ps, (Option.some.inj hrecord).symm, hne, hps, hmem⟩

/-- Taking a term out leaves the relation at every other term. -/
theorem erase (h : b.Lists R) {t : RawText} (hnone : ∀ p, ¬ R' t p)
    (hother : ∀ t', t' ≠ t → ∀ p, R' t' p ↔ R t' p) : (b.erase t).Lists R' := by
  refine h.change (erase_ordered h.ordered _) (fun t' he => ?_) hother (fun p hp => absurd hp (hnone p))
    (fun _ => hnone) fun record hrecord => ?_
  · rw [get?_erase, if_neg (Ne.symm he)]
  · rw [get?_erase, if_pos rfl] at hrecord
    cases hrecord

/-- Looking a term up finds its paths; a list that is there is not empty. -/
theorem postings (h : b.Lists R) (t : RawText) :
    ∃ found, Store.postings b t = .ok found ∧ found ≠ some [] ∧ (found.getD []).Pairwise (· < ·) ∧
      ∀ p, p ∈ found.getD [] ↔ R t p := by
  unfold Store.postings
  cases hget : b.get? t with
  | none => exact ⟨none, rfl, by simp, .nil, fun p => by simpa using h.absent t hget p⟩
  | some record =>
    obtain ⟨ps, rfl, hne, hord, hiff⟩ := h.present t record hget
    have hmended : ps.map RawText.mended = ps :=
      Store.map_mended_of_isText fun p hp => h.text t p ((hiff p).1 hp)
    refine ⟨some ps, ?_, by simpa using hne, hord, hiff⟩
    show (Postings.ofRecord _).mapError _ = _
    rw [Postings.ofRecord_toRecord, Option.map_some, hmended]
    rfl

theorem mem_keys (h : b.Lists R) (t : RawText) : t ∈ b.keys ↔ ∃ p, R t p := by
  rw [Bucket.mem_keys]
  constructor
  · rintro ⟨stored, hget⟩
    obtain ⟨ps, _, hne, _, hiff⟩ := h.present t stored hget
    obtain ⟨p, hp⟩ := List.exists_mem_of_ne_nil ps hne
    exact ⟨p, (hiff p).1 hp⟩
  · rintro ⟨p, hp⟩
    cases hget : b.get? t with
    | none => exact absurd hp (h.absent t hget p)
    | some stored => exact ⟨stored, rfl⟩

/-! ### Adding and removing a path -/

theorem addPosting (h : b.Lists R) {path : RawText} (hpath : path.IsText) (t : RawText) :
    ∃ b', Store.addPosting path b t = .ok b' ∧ b'.Lists fun t' p => R t' p ∨ t' = t ∧ p = path := by
  obtain ⟨found, hfound, _, hord, hmem⟩ := h.postings t
  refine ⟨_, Store.addPosting_eq hfound, ?_⟩
  by_cases hin : path ∈ found.getD []
  · rw [if_pos ((Store.getElem?_place hord path).2 hin)]
    refine h.congr fun t' p => ?_
    have hR : R t path := (hmem path).1 hin
    constructor
    · exact .inl
    · rintro (hp | ⟨rfl, rfl⟩)
      · exact hp
      · exact hR
  · rw [if_neg fun he => hin ((Store.getElem?_place hord path).1 he)]
    have hmem' := Store.mem_insertPath hord path
    refine h.putPostings ?_ (Store.insertPath_ordered hord path) (fun p hp => ?_) (fun p => ?_) (fun t' hne p => ?_)
    · exact List.ne_nil_of_mem ((hmem' path).2 (.inr rfl))
    · rcases (hmem' p).1 hp with hp | rfl
      · exact h.text t p ((hmem p).1 hp)
      · exact hpath
    · rw [hmem', hmem]
      simp
    · simp [hne]

theorem removePosting (h : b.Lists R) (path t : RawText) :
    ∃ b', Store.removePosting path b t = .ok b' ∧
      b'.Lists fun t' p => R t' p ∧ ¬ (t' = t ∧ p = path) := by
  obtain ⟨found, hfound, _, hord, hmem⟩ := h.postings t
  refine ⟨_, Store.removePosting_eq hfound, ?_⟩
  have hrel : ∀ p, p ∈ Store.erasePath path (found.getD []) ↔ R t p ∧ ¬ (t = t ∧ p = path) := by
    intro p
    rw [Store.mem_erasePath hord path, hmem]
    simp
  by_cases hin : path ∈ found.getD []
  · rw [if_pos ((Store.getElem?_place hord path).2 hin)]
    by_cases hrest : Store.erasePath path (found.getD []) = []
    · rw [if_pos hrest]
      refine h.erase (fun p => ?_) (fun t' hne p => by simp [hne])
      rw [← hrel, hrest]
      exact List.not_mem_nil
    · rw [if_neg hrest]
      exact h.putPostings hrest (Store.erasePath_ordered hord path)
        (fun p hp => h.text t p ((hrel p).1 hp).1) hrel (fun t' hne p => by simp [hne])
  · rw [if_neg fun he => hin ((Store.getElem?_place hord path).1 he)]
    refine h.congr fun t' p => ?_
    constructor
    · intro hp
      refine ⟨hp, ?_⟩
      rintro ⟨rfl, rfl⟩
      exact hin ((hmem p).2 hp)
    · exact And.left

theorem addPostings (h : b.Lists R) {path : RawText} (hpath : path.IsText) (ts : List RawText) :
    ∃ b', ts.foldlM (Store.addPosting path) b = .ok b' ∧
      b'.Lists fun t p => R t p ∨ t ∈ ts ∧ p = path := by
  induction ts generalizing b R with
  | nil => exact ⟨b, rfl, h.congr fun t p => by simp⟩
  | cons t ts ih =>
    obtain ⟨b₁, h₁, hl₁⟩ := h.addPosting hpath t
    obtain ⟨b₂, h₂, hl₂⟩ := ih hl₁
    refine ⟨b₂, ?_, hl₂.congr fun t' p => by grind⟩
    rw [List.foldlM_cons, h₁]
    exact h₂

theorem removePostings (h : b.Lists R) (path : RawText) (ts : List RawText) :
    ∃ b', ts.foldlM (Store.removePosting path) b = .ok b' ∧
      b'.Lists fun t p => R t p ∧ ¬ (t ∈ ts ∧ p = path) := by
  induction ts generalizing b R with
  | nil => exact ⟨b, rfl, h.congr fun t p => by simp⟩
  | cons t ts ih =>
    obtain ⟨b₁, h₁, hl₁⟩ := h.removePosting path t
    obtain ⟨b₂, h₂, hl₂⟩ := ih hl₁
    refine ⟨b₂, ?_, hl₂.congr fun t' p => by grind⟩
    rw [List.foldlM_cons, h₁]
    exact h₂

end Bucket.Lists

/-- The lists of a bucket can be read, all of them. -/
def Bucket.Readable (b : Bucket RawText) : Prop := ∀ t, ∃ ps, Store.postings b t = .ok ps

namespace Bucket.Readable

variable {b : Bucket RawText}

theorem putPostings (h : b.Readable) (term : RawText) (ps : List RawText) :
    (Store.putPostings b term ps).Readable := by
  intro t
  rw [Store.postings_putPostings]
  split
  · exact ⟨_, rfl⟩
  · exact h t

theorem erase (h : b.Readable) (term : RawText) : (b.erase term).Readable := by
  intro t
  rw [Store.postings_erase]
  split
  · exact ⟨_, rfl⟩
  · exact h t

theorem addPosting (h : b.Readable) (path t : RawText) :
    ∃ b', Store.addPosting path b t = .ok b' ∧ b'.Readable := by
  obtain ⟨found, hfound⟩ := h t
  refine ⟨_, Store.addPosting_eq hfound, ?_⟩
  split
  · exact h
  · exact h.putPostings t _

theorem removePosting (h : b.Readable) (path t : RawText) :
    ∃ b', Store.removePosting path b t = .ok b' ∧ b'.Readable := by
  obtain ⟨found, hfound⟩ := h t
  refine ⟨_, Store.removePosting_eq hfound, ?_⟩
  split
  · split
    · exact h.erase t
    · exact h.putPostings t _
  · exact h

/-- An update that goes through at each term goes through at all of them. -/
theorem foldlM {update : Bucket RawText → RawText → Except StoreError (Bucket RawText)}
    (hupdate : ∀ b : Bucket RawText, b.Readable → ∀ t, ∃ b', update b t = .ok b' ∧ b'.Readable) (h : b.Readable)
    (ts : List RawText) : ∃ b', ts.foldlM update b = .ok b' ∧ b'.Readable := by
  induction ts generalizing b with
  | nil => exact ⟨b, rfl, h⟩
  | cons t ts ih =>
    obtain ⟨b₁, h₁, hr₁⟩ := hupdate b h t
    obtain ⟨b₂, h₂, hr₂⟩ := ih hr₁
    refine ⟨b₂, ?_, hr₂⟩
    rw [List.foldlM_cons, h₁]
    exact h₂

end Bucket.Readable

theorem Bucket.Lists.readable {b : Bucket RawText} {R : RawText → RawText → Prop} (h : b.Lists R) : b.Readable := by
  intro t
  obtain ⟨found, hfound, _⟩ := h.postings t
  exact ⟨found, hfound⟩

/-! ### Contents -/

/-- A document under some paths. -/
abbrev Contents := RawText → Option Document

namespace Contents

def none : Contents := fun _ => .none

/-- The contents with another document, or none, under a path. -/
def set (m : Contents) (path : RawText) (d : Option Document) : Contents :=
  fun p => if p = path then d else m p

/-- The paths that a field's term leads to. -/
def Finds (m : Contents) (f : Field) (t p : RawText) : Prop := ∃ d, m p = some d ∧ t ∈ d.termKeys f

theorem set_none_of_absent {m : Contents} {path : RawText} (h : m path = .none) : m.set path .none = m := by
  funext p
  by_cases hp : p = path <;> simp [set, hp, h]

theorem set_set (m : Contents) (path : RawText) (d d' : Option Document) :
    (m.set path d).set path d' = m.set path d' := by
  funext p
  by_cases hp : p = path <;> simp [set, hp]

theorem finds_set_none {m : Contents} {path : RawText} {old : Document} (h : m path = some old)
    (f : Field) (t p : RawText) :
    m.Finds f t p ∧ ¬ (t ∈ old.termKeys f ∧ p = path) ↔ (m.set path .none).Finds f t p := by
  by_cases hp : p = path
  · subst hp
    simp [Finds, set, h]
  · simp [Finds, set, hp]

theorem finds_set_some {m : Contents} {path : RawText} {d : Document} (h : m path = .none)
    (f : Field) (t p : RawText) :
    m.Finds f t p ∨ t ∈ d.termKeys f ∧ p = path ↔ (m.set path (some d)).Finds f t p := by
  by_cases hp : p = path
  · subst hp
    simp [Finds, set, h]
  · simp [Finds, set, hp]

/-- Documents go by their own paths, which are texts. -/
def Named (m : Contents) : Prop := ∀ p d, m p = some d → d.path = p ∧ p.IsText

theorem Named.set_none {m : Contents} (h : m.Named) (path : RawText) : (m.set path .none).Named := by
  intro p d hd
  unfold Contents.set at hd
  split at hd
  · cases hd
  · exact h p d hd

theorem Named.set_some {m : Contents} (h : m.Named) {d : Document} (hd : d.path.IsText) :
    (m.set d.path (some d)).Named := by
  intro p d' hd'
  unfold Contents.set at hd'
  split at hd'
  · rename_i hp
    obtain rfl := Option.some.inj hd'
    exact ⟨hp.symm, hp ▸ hd⟩
  · exact h p d' hd'

/-- The contents with these documents stored in turn. -/
def setAll (m : Contents) (ds : List Document) : Contents :=
  ds.foldl (fun m d => m.set d.path (some d)) m

/-- Documents under different paths may be stored in any order. -/
theorem setAll_perm (m : Contents) {ds ds' : List Document} (h : ds.Perm ds')
    (hpaths : (ds.map Document.path).Nodup) : m.setAll ds = m.setAll ds' := by
  have hcomm : ∀ d ∈ ds, ∀ d' ∈ ds, ∀ m : Contents,
      (m.set d.path (some d)).set d'.path (some d') = (m.set d'.path (some d')).set d.path (some d) := by
    intro d hd d' hd' m
    by_cases hpath : d.path = d'.path
    · rw [List.inj_on_of_nodup_map hpaths hd hd' hpath]
    · funext p
      simp only [set]
      grind
  exact h.foldl_eq' hcomm m

end Contents

/-! ### Stores -/

namespace Store

@[simp] theorem bucket_setBucket (s : Store) (f f' : Field) (b : Bucket RawText) :
    (s.setBucket f b).bucket f' = if f' = f then b else s.bucket f' := by
  cases f <;> cases f' <;> rfl

@[simp] theorem docs_setBucket (s : Store) (f : Field) (b : Bucket RawText) :
    (s.setBucket f b).docs = s.docs := by
  cases f <;> rfl

section UpdateTerms
variable {update : Bucket RawText → RawText → Except StoreError (Bucket RawText)} {d : Document} {s s' : Store}

/-- When the update goes through in every field, it goes through as a whole, field by field. -/
theorem updateTerms_ok {P : Field → Bucket RawText → Prop}
    (h : ∀ f, ∃ b, (d.termKeys f).foldlM update (s.bucket f) = .ok b ∧ P f b) :
    ∃ s', updateTerms update d s = .ok s' ∧ s'.docs = s.docs ∧ ∀ f, P f (s'.bucket f) := by
  obtain ⟨defs, hdefs, hP₁⟩ := h .defs
  obtain ⟨refs, hrefs, hP₂⟩ := h .refs
  obtain ⟨full, hfull, hP₃⟩ := h .full
  refine ⟨((s.setBucket .defs defs).setBucket .refs refs).setBucket .full full, ?_, by simp, fun f => ?_⟩
  · simp [updateTerms, Field.all, hdefs, hrefs, hfull, bind, Except.bind, Functor.map, Except.map, pure,
      Except.pure]
  · cases f <;> simpa

/-- An update of terms goes through field by field, and leaves the documents. -/
theorem updateTerms_cases (h : updateTerms update d s = .ok s') :
    s'.docs = s.docs ∧ ∀ f, (d.termKeys f).foldlM update (s.bucket f) = .ok (s'.bucket f) := by
  simp only [updateTerms, Field.all, List.foldlM_cons, List.foldlM_nil, bind_eq_ok, map_eq_ok, pure_eq_ok] at h
  obtain ⟨_, ⟨defs, hdefs, rfl⟩, _, ⟨refs, hrefs, rfl⟩, _, ⟨full, hfull, rfl⟩, rfl⟩ := h
  simp only [bucket_setBucket] at hrefs hfull
  refine ⟨by simp, fun f => ?_⟩
  cases f
  · simpa using hdefs
  · simpa using hrefs
  · simpa using hfull

/-- A document's terms do not depend on its path. -/
theorem updateTerms_mended : updateTerms update d.mended s = updateTerms update d s := by
  simp only [updateTerms, Document.termKeys_mended]

end UpdateTerms

/-- A path under which a document can be stored. -/
def IsKey (path : RawText) : Prop := path ≠ .empty ∧ path.size ≤ maxKeySize

instance (path : RawText) : Decidable (IsKey path) :=
  inferInstanceAs (Decidable (path ≠ .empty ∧ path.size ≤ maxKeySize))

/-- The documents of the store are these, each under its path. -/
structure HasDocuments (s : Store) (m : Contents) : Prop where
  ordered : s.docs.keys.Pairwise (· < ·)
  docs : ∀ p, s.docs.get? p = (m p).map Document.toRecord

section
variable {s s' : Store} {m : Contents}

/-- What removing a path comes to, when its postings can be taken out. -/
theorem HasDocuments.remove (h : s.HasDocuments m) {path : RawText} {P : Field → Bucket RawText → Prop}
    (hgone : ∀ old, m path = some old →
      ∀ f, ∃ b, (old.termKeys f).foldlM (removePosting path) (s.bucket f) = .ok b ∧ P f b)
    (hsame : m path = none → ∀ f, P f (s.bucket f)) :
    ∃ s', s.remove path = .ok s' ∧ s'.HasDocuments (m.set path .none) ∧ ∀ f, P f (s'.bucket f) := by
  have hget := h.docs path
  cases hm : m path with
  | none =>
    rw [hm, Option.map_none] at hget
    refine ⟨s, by simp only [Store.remove, hget], ?_, hsame hm⟩
    rw [Contents.set_none_of_absent hm]
    exact h
  | some old =>
    rw [hm, Option.map_some] at hget
    obtain ⟨s', hs', hdocs, hlists⟩ := updateTerms_ok (hgone old hm)
    refine ⟨{ s' with docs := s'.docs.erase path }, ?_, ⟨?_, fun p => ?_⟩, hlists⟩
    · simp only [Store.remove, hget, Document.ofRecord_toRecord]
      show (updateTerms _ old.mended s >>= _) = _
      rw [updateTerms_mended, hs']
      rfl
    · show (s'.docs.erase path).keys.Pairwise _
      rw [hdocs]
      exact Bucket.erase_ordered h.ordered path
    · show (s'.docs.erase path).get? p = _
      rw [hdocs, Bucket.get?_erase, h.docs, Contents.set]
      by_cases hp : p = path
      · simp [hp]
      · simp [hp, Ne.symm hp]

/-- What adding a document comes to, when its postings can be put in. -/
theorem HasDocuments.add (h : s.HasDocuments m) {d : Document} (hkey : IsKey d.path)
    {P : Field → Bucket RawText → Prop}
    (hput : ∀ f, ∃ b, (d.termKeys f).foldlM (addPosting d.path) (s.bucket f) = .ok b ∧ P f b) :
    ∃ s', s.add d = .ok s' ∧ s'.HasDocuments (m.set d.path (some d)) ∧ ∀ f, P f (s'.bucket f) := by
  obtain ⟨s', hs', hdocs, hlists⟩ := updateTerms_ok (s := { s with docs := s.docs.insert d.path d.toRecord }) hput
  refine ⟨s', ?_, ⟨?_, fun p => ?_⟩, hlists⟩
  · unfold Store.add
    rw [if_neg hkey.1, if_neg (Nat.not_lt.2 hkey.2)]
    exact hs'
  · rw [hdocs]
    exact Bucket.insert_ordered h.ordered _ _
  · rw [hdocs, Bucket.get?_insert, h.docs, Contents.set]
    by_cases hp : p = d.path
    · simp [hp]
    · simp [hp, Ne.symm hp]

theorem add_error {d : Document} (hkey : ¬ IsKey d.path) : ∃ e, s.add d = .error e := by
  unfold add
  by_cases hempty : d.path = .empty
  · rw [if_pos hempty]
    exact ⟨_, rfl⟩
  · have hlong : maxKeySize < d.path.size := by
      apply Nat.lt_of_not_le
      exact fun hle => hkey ⟨hempty, hle⟩
    rw [if_neg hempty, if_pos hlong]
    exact ⟨_, rfl⟩

theorem put_of_remove {d : Document} (h : s.remove d.path = .ok s') :
    s.put d = (s'.add d).mapError (.putting d.path) := by
  unfold put
  rw [h]
  rfl

theorem delete_of_remove {path : RawText} (h : s.remove path = .ok s') : s.delete path = .ok s' := by
  unfold delete
  rw [h]
  rfl

/-! ### Stores whose lists can be read -/

/-- The store holds these documents, and its posting lists can be read. -/
structure Holds (s : Store) (m : Contents) : Prop extends s.HasDocuments m where
  readable : ∀ f, (s.bucket f).Readable

theorem remove_holds (h : s.Holds m) (path : RawText) :
    ∃ s', s.remove path = .ok s' ∧ s'.Holds (m.set path .none) := by
  obtain ⟨s', hs', hdocs, hread⟩ := h.toHasDocuments.remove (P := fun _ b => b.Readable)
    (fun old _ f => (h.readable f).foldlM (fun b hb t => hb.removePosting path t) (old.termKeys f))
    (fun _ => h.readable)
  exact ⟨s', hs', ⟨hdocs, hread⟩⟩

/-- Storing a document succeeds exactly when its path can be a key, whatever the path's bytes. -/
theorem put_holds (h : s.Holds m) (d : Document) :
    (IsKey d.path → ∃ s', s.put d = .ok s' ∧ s'.Holds (m.set d.path (some d))) ∧
      (¬ IsKey d.path → ∃ e, s.put d = .error e) := by
  obtain ⟨s₁, hs₁, hholds⟩ := remove_holds h d.path
  rw [put_of_remove hs₁]
  constructor
  · intro hkey
    obtain ⟨s₂, hs₂, hdocs, hread⟩ := hholds.toHasDocuments.add hkey (P := fun _ b => b.Readable)
      fun f => (hholds.readable f).foldlM (fun b hb t => hb.addPosting d.path t) (d.termKeys f)
    rw [Contents.set_set] at hdocs
    exact ⟨s₂, by rw [hs₂]; rfl, ⟨hdocs, hread⟩⟩
  · intro hkey
    obtain ⟨e, he⟩ := add_error (s := s₁) hkey
    exact ⟨.putting d.path e, by rw [he]; rfl⟩

/-! ### Stores that index their documents -/

/-- The store holds these documents, by their own paths, and nothing but their postings. -/
structure Indexes (s : Store) (m : Contents) : Prop extends s.HasDocuments m where
  named : m.Named
  postings : ∀ f, (s.bucket f).Lists (m.Finds f)

theorem Indexes.holds (h : s.Indexes m) : s.Holds m := ⟨h.toHasDocuments, fun f => (h.postings f).readable⟩

theorem empty_indexes : empty.Indexes .none where
  ordered := .nil
  docs := fun _ => rfl
  named := nofun
  postings := fun f => by
    refine ⟨by cases f <;> exact .nil, ?_, fun t _ p => ?_, fun t record h => ?_⟩
    · rintro t p ⟨d, hd, _⟩
      cases hd
    · rintro ⟨d, hd, _⟩
      cases hd
    · cases f <;> cases h

/-- Removing a path never fails on a store that indexes its documents. -/
theorem remove_indexes (h : s.Indexes m) (path : RawText) :
    ∃ s', s.remove path = .ok s' ∧ s'.Indexes (m.set path .none) := by
  have hgone : ∀ old, m path = some old → ∀ f, ∃ b, (old.termKeys f).foldlM (removePosting path) (s.bucket f) = .ok b ∧
      b.Lists ((m.set path .none).Finds f) := by
    intro old hold f
    obtain ⟨b, hb, hlists⟩ := (h.postings f).removePostings path (old.termKeys f)
    exact ⟨b, hb, hlists.congr (Contents.finds_set_none hold f)⟩
  have hsame : m path = none → ∀ f, (s.bucket f).Lists ((m.set path .none).Finds f) := fun hnone f =>
    (Contents.set_none_of_absent hnone).symm ▸ h.postings f
  obtain ⟨s', hs', hdocs, hlists⟩ := h.toHasDocuments.remove hgone hsame
  exact ⟨s', hs', hdocs, h.named.set_none path, hlists⟩

theorem add_indexes (h : s.Indexes m) {d : Document} (hkey : IsKey d.path) (htext : d.path.IsText)
    (hm : m d.path = none) : ∃ s', s.add d = .ok s' ∧ s'.Indexes (m.set d.path (some d)) := by
  have hput : ∀ f, ∃ b, (d.termKeys f).foldlM (addPosting d.path) (s.bucket f) = .ok b ∧
      b.Lists ((m.set d.path (some d)).Finds f) := by
    intro f
    obtain ⟨b, hb, hlists⟩ := (h.postings f).addPostings htext (d.termKeys f)
    exact ⟨b, hb, hlists.congr (Contents.finds_set_some hm f)⟩
  obtain ⟨s', hs', hdocs, hlists⟩ := h.toHasDocuments.add hkey hput
  exact ⟨s', hs', hdocs, h.named.set_some htext, hlists⟩

/-- **Storing a document under a text succeeds exactly when the text can be a key**, and replaces what the
path had, postings included. -/
theorem put_indexes (h : s.Indexes m) {d : Document} (htext : d.path.IsText) :
    (IsKey d.path → ∃ s', s.put d = .ok s' ∧ s'.Indexes (m.set d.path (some d))) ∧
      (¬ IsKey d.path → ∃ e, s.put d = .error e) := by
  obtain ⟨s₁, hs₁, hind⟩ := remove_indexes h d.path
  refine ⟨fun hkey => ?_, (put_holds h.holds d).2⟩
  obtain ⟨s₂, hs₂, hind₂⟩ := add_indexes hind hkey htext (by simp [Contents.set])
  rw [Contents.set_set] at hind₂
  exact ⟨s₂, by rw [put_of_remove hs₁, hs₂]; rfl, hind₂⟩

theorem delete_indexes (h : s.Indexes m) (path : RawText) :
    ∃ s', s.delete path = .ok s' ∧ s'.Indexes (m.set path .none) := by
  obtain ⟨s', hs', hind⟩ := remove_indexes h path
  exact ⟨s', delete_of_remove hs', hind⟩

/-! ### Answers -/

/-- A document is found under its path as a record keeps it. -/
theorem HasDocuments.get (h : s.HasDocuments m) (path : RawText) :
    s.get path = match m path with
      | some d => .ok d.mended
      | none => .error (.notFound path) := by
  unfold Store.get
  rw [h.docs]
  cases m path with
  | none => rfl
  | some d =>
    show (Document.ofRecord d.toRecord).mapError _ = _
    rw [Document.ofRecord_toRecord]
    rfl

theorem Indexes.get (h : s.Indexes m) (path : RawText) :
    s.get path = match m path with
      | some d => .ok d
      | none => .error (.notFound path) := by
  rw [h.toHasDocuments.get]
  cases hm : m path with
  | none => rfl
  | some d =>
    obtain ⟨rfl, htext⟩ := h.named path d hm
    exact congrArg Except.ok (Document.mended_eq_self htext)

theorem HasDocuments.mem_paths (h : s.HasDocuments m) (path : RawText) : path ∈ s.paths ↔ ∃ d, m path = some d := by
  unfold paths
  rw [Bucket.mem_keys, h.docs]
  cases m path <;> simp

theorem nodup_of_ordered {ps : List RawText} (h : ps.Pairwise (· < ·)) : ps.Nodup := by
  refine List.Pairwise.imp ?_ h
  rintro p _ hlt rfl
  exact RawText.lt_irrefl p hlt

theorem eq_of_ordered {ps qs : List RawText} (hps : ps.Pairwise (· < ·)) (hqs : qs.Pairwise (· < ·))
    (hmem : ∀ p, p ∈ ps ↔ p ∈ qs) : ps = qs := by
  have hperm : ps.Perm qs :=
    (List.perm_ext_iff_of_nodup (nodup_of_ordered hps) (nodup_of_ordered hqs)).2 hmem
  exact hperm.eq_of_pairwise (fun p q _ _ hpq hqp => absurd (RawText.lt_trans hpq hqp) (RawText.lt_irrefl p)) hps hqs

/-- Two stores that tell of the same documents. -/
structure SameDocuments (s s' : Store) : Prop where
  get : ∀ path, s.get path = s'.get path
  paths : s.paths = s'.paths

/-- Two stores that answer every question alike. -/
structure Alike (s s' : Store) : Prop extends s.SameDocuments s' where
  search : ∀ f term, s.search f term = s'.search f term

theorem HasDocuments.same (h : s.HasDocuments m) (h' : s'.HasDocuments m) : s.SameDocuments s' where
  get := fun path => by rw [h.get, h'.get]
  paths := eq_of_ordered h.ordered h'.ordered fun p => (h.mem_paths p).trans (h'.mem_paths p).symm

/-- The documents decide every answer. -/
theorem Indexes.alike (h : s.Indexes m) (h' : s'.Indexes m) : s.Alike s' where
  toSameDocuments := h.toHasDocuments.same h'.toHasDocuments
  search := by
    intro f t
    obtain ⟨found, hfound, hne, hord, hmem⟩ := (h.postings f).postings t
    obtain ⟨found', hfound', hne', hord', hmem'⟩ := (h'.postings f).postings t
    have hlists : found.getD [] = found'.getD [] :=
      eq_of_ordered hord hord' fun p => (hmem p).trans (hmem' p).symm
    have heq : found = found' := by
      cases found <;> cases found' <;> simp_all
    rw [Store.search, Store.search, hfound, hfound', heq]

end
end Store
end ClassAtlas.Index
