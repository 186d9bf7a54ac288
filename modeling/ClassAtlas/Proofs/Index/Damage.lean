import ClassAtlas.Proofs.Index.Leftovers

/-! Updates of a store that may be damaged.

Posting lists are searched by halving as if they were in order. On a list that is not, halving ends
anywhere, and yet an update takes out nothing but its own path and puts in nothing else: it removes
what stands at the place only when that is the path (`filter_erasePath`), and otherwise parts the
list there and joins it again (`filter_mended_insertPath`). So under every term the other paths stay, in
their order and as often as they were there (`SameOthers`), and with the documents under other keys
this makes up what an update spares of a store (`Spares`). Nothing is asked of the store, whose
lists may be in any order, hold a path twice or be no lists at all.

What is put in is read back as the path's mended form. Where that is another path, it is that one which the
lists gain (`addPostings_has`, `not_sameOthers_of_length`). -/
namespace ClassAtlas.Index

/-! ### Lists in any order -/

namespace Store

section Lists
variable (path : RawText) (paths : List RawText)

theorem filter_erasePath : (erasePath path paths).filter (· ≠ path) = paths.filter (· ≠ path) := by
  unfold erasePath
  dsimp only
  split
  · rename_i hthere
    obtain ⟨hlt, he⟩ := List.getElem?_eq_some_iff.1 hthere
    have hparts := congrArg (List.filter (· ≠ path)) (List.take_append_drop (place paths path) paths)
    rw [List.drop_eq_getElem_cons hlt, he, List.filter_append, List.filter_cons_of_neg (by simp)] at hparts
    rw [List.eraseIdx_eq_take_drop_succ, List.filter_append]
    exact hparts
  · rfl

theorem mem_insertPath_self : path ∈ insertPath path paths := by
  unfold insertPath
  dsimp only
  split
  · rename_i hthere
    exact List.mem_of_getElem? hthere
  · simp

variable {path paths}

theorem mem_of_mem_erasePath {p : RawText} (h : p ∈ erasePath path paths) : p ∈ paths := by
  unfold erasePath at h
  dsimp only at h
  split at h
  · exact List.mem_of_mem_eraseIdx h
  · exact h

/-- Among texts, putting a path in and reading the list puts in the path as mended. -/
theorem map_mended_insertPath (h : ∀ p ∈ paths, p.IsText) :
    (insertPath path paths).map RawText.mended =
      if paths[place paths path]? = some path then paths
      else paths.take (place paths path) ++ path.mended :: paths.drop (place paths path) := by
  unfold insertPath
  dsimp only
  split
  · exact map_mended_of_isText h
  · rw [List.map_append, List.map_cons, map_mended_of_isText fun p hp => h p (List.mem_of_mem_take hp),
      map_mended_of_isText fun p hp => h p (List.mem_of_mem_drop hp)]

theorem filter_mended_insertPath (h : ∀ p ∈ paths, p.IsText) :
    ((insertPath path paths).map RawText.mended).filter (· ≠ path.mended) = paths.filter (· ≠ path.mended) := by
  rw [map_mended_insertPath h]
  split
  · rfl
  · have hparts := congrArg (List.filter (· ≠ path.mended)) (List.take_append_drop (place paths path) paths)
    rw [List.filter_append] at hparts
    rw [List.filter_append, List.filter_cons_of_neg (by simp)]
    exact hparts

end Lists

/-! ### Buckets -/

/-- The paths under a term without one of them, in their order, or why they cannot be read. -/
def others (path : RawText) (b : Bucket RawText) (term : RawText) : Except StoreError (List RawText) :=
  (fun ps => (ps.getD []).filter (· ≠ path)) <$> postings b term

/-- The buckets differ at most in where they have the path. -/
def SameOthers (path : RawText) (b b' : Bucket RawText) : Prop := ∀ term, others path b' term = others path b term

/-- The path is one of those under a term. -/
def Has (path : RawText) (b : Bucket RawText) (term : RawText) : Prop :=
  ∃ ps, postings b term = .ok (some ps) ∧ path ∈ ps

section Buckets
variable {path q term : RawText} {b b' : Bucket RawText} {found : Postings}

theorem SameOthers.refl (b : Bucket RawText) : SameOthers q b b := fun _ => rfl

theorem SameOthers.trans {b'' : Bucket RawText} (h : SameOthers q b b') (h' : SameOthers q b' b'') :
    SameOthers q b b'' := fun t => (h' t).trans (h t)

/-- A list in place of one that has the same other paths. -/
theorem sameOthers_putPostings (hfound : postings b term = .ok found) {ps : List RawText}
    (hps : (ps.map RawText.mended).filter (· ≠ q) = (found.getD []).filter (· ≠ q)) :
    SameOthers q b (putPostings b term ps) := by
  intro t
  unfold others
  rw [postings_putPostings]
  by_cases h : term = t
  · subst h
    rw [if_pos rfl, hfound]
    exact congrArg Except.ok hps
  · rw [if_neg h]

/-- No list in place of one that has no other paths. -/
theorem sameOthers_erase (hfound : postings b term = .ok found) (hnone : (found.getD []).filter (· ≠ q) = []) :
    SameOthers q b (b.erase term) := by
  intro t
  unfold others
  rw [postings_erase]
  by_cases h : term = t
  · subst h
    rw [if_pos rfl, hfound]
    exact congrArg Except.ok hnone.symm
  · rw [if_neg h]

theorem addPosting_sameOthers (h : addPosting path b term = .ok b') : SameOthers path.mended b b' := by
  obtain ⟨found, hfound⟩ := postings_of_addPosting h
  rw [addPosting_eq hfound] at h
  obtain rfl := Except.ok.inj h
  split
  · exact .refl b
  · exact sameOthers_putPostings hfound (filter_mended_insertPath (isText_of_mem_postings hfound))

theorem removePosting_sameOthers (h : removePosting path b term = .ok b') : SameOthers path b b' := by
  obtain ⟨found, hfound⟩ := postings_of_removePosting h
  have htexts : ∀ p ∈ erasePath path (found.getD []), p.IsText := fun p hp =>
    isText_of_mem_postings hfound p (mem_of_mem_erasePath hp)
  rw [removePosting_eq hfound] at h
  obtain rfl := Except.ok.inj h
  split
  · split
    · rename_i hnone
      refine sameOthers_erase hfound ?_
      rw [← filter_erasePath, hnone, List.filter_nil]
    · refine sameOthers_putPostings hfound ?_
      rw [map_mended_of_isText htexts, filter_erasePath]
  · exact .refl b

/-- Where a path is not the mended one, nothing is taken out. -/
theorem removePosting_sameOthers_mended (h : removePosting path b term = .ok b') :
    SameOthers path.mended b b' := by
  by_cases hpath : path.IsText
  · rw [hpath.mended]
    exact removePosting_sameOthers h
  · obtain ⟨found, hfound⟩ := postings_of_removePosting h
    rw [removePosting_of_not_isText hfound hpath] at h
    obtain rfl := Except.ok.inj h
    exact .refl b

/-- A path added is under its term as mended, and what was there under any term still is. -/
theorem addPosting_has (h : addPosting path b term = .ok b') {t : RawText} (ht : t = term ∨ Has path.mended b t) :
    Has path.mended b' t := by
  obtain ⟨found, hfound⟩ := postings_of_addPosting h
  rw [addPosting_eq hfound] at h
  obtain rfl := Except.ok.inj h
  split
  · rename_i hthere
    have hmem := List.mem_of_getElem? hthere
    rcases ht with rfl | ht
    · cases found with
      | none => cases hmem
      | some ps => exact ⟨ps, hfound, (isText_of_mem_postings hfound path hmem).mended.symm ▸ hmem⟩
    · exact ht
  · unfold Has
    rw [postings_putPostings]
    by_cases he : term = t
    · rw [if_pos he]
      exact ⟨_, rfl, List.mem_map_of_mem (mem_insertPath_self path _)⟩
    · rw [if_neg he]
      exact ht.resolve_left (Ne.symm he)

/-- Without a path that is no text a list is whole, so lists of different lengths differ without it. -/
theorem not_sameOthers_of_length (hpath : ¬ path.IsText) (h : lengthUnder b' term ≠ lengthUnder b term) :
    ¬ SameOthers path b b' := by
  intro hsame
  have hlength : ∀ b, lengthUnder b term = match others path b term with
      | .ok ps => ps.length
      | .error _ => 0 := by
    intro b
    unfold lengthUnder others
    cases hpostings : postings b term with
    | error e => rfl
    | ok ps =>
      show _ = ((ps.getD []).filter (· ≠ path)).length
      rw [List.filter_eq_self.2]
      rintro p hp
      refine decide_eq_true ?_
      rintro rfl
      exact hpath (isText_of_mem_postings hpostings p hp)
  exact h (by rw [hlength, hlength, hsame])

/-! ### All terms of a document -/

/-- What each update of a term keeps of the other paths, the updates of many terms keep. -/
theorem foldlM_sameOthers {update : Bucket RawText → RawText → Except StoreError (Bucket RawText)}
    (hupdate : ∀ {b t b'}, update b t = .ok b' → SameOthers q b b') {terms : List RawText}
    (h : terms.foldlM update b = .ok b') : SameOthers q b b' := by
  induction terms generalizing b with
  | nil =>
    obtain rfl := pure_eq_ok.1 h
    exact .refl b'
  | cons t rest ih =>
    rw [List.foldlM_cons] at h
    obtain ⟨b₁, hfirst, hrest⟩ := bind_eq_ok.1 h
    exact (hupdate hfirst).trans (ih hrest)

theorem addPostings_has {terms : List RawText} (h : terms.foldlM (addPosting path) b = .ok b') {t : RawText}
    (ht : t ∈ terms ∨ Has path.mended b t) : Has path.mended b' t := by
  induction terms generalizing b with
  | nil =>
    obtain rfl := pure_eq_ok.1 h
    exact ht.resolve_left List.not_mem_nil
  | cons term rest ih =>
    rw [List.foldlM_cons] at h
    obtain ⟨b₁, hfirst, hrest⟩ := bind_eq_ok.1 h
    apply ih hrest
    rw [List.mem_cons, or_assoc, or_left_comm] at ht
    exact ht.imp_right (addPosting_has hfirst)

/-- A path that is no text, put in under some terms, changes what else is under them. -/
theorem addPostings_sameOthers_iff {terms : List RawText} (h : terms.foldlM (addPosting path) b = .ok b') :
    SameOthers path b b' ↔ path.IsText ∨ terms = [] := by
  constructor
  · intro hsame
    by_contra hnot
    obtain ⟨hpath, hterms⟩ := not_or.1 hnot
    obtain ⟨t, ht⟩ := List.exists_mem_of_ne_nil terms hterms
    have hcount := List.count_pos_iff.2 ht
    have hlength := length_addPostings hpath h t
    exact not_sameOthers_of_length hpath (show lengthUnder b' t ≠ lengthUnder b t by omega) hsame
  · rintro (hpath | rfl)
    · exact hpath.mended ▸ foldlM_sameOthers addPosting_sameOthers h
    · obtain rfl := pure_eq_ok.1 h
      exact .refl b'

end Buckets

/-! ### Stores -/

/-- What an update of a path spares: the documents under other keys, and the paths other than `listed`
under each term of each field. -/
structure Spares (path listed : RawText) (s s' : Store) : Prop where
  docs : ∀ p, p ≠ path → s'.docs.get? p = s.docs.get? p
  postings : ∀ f, SameOthers listed (s.bucket f) (s'.bucket f)

section Stores
variable {path : RawText} {s s' : Store} {d : Document}

/-- The document under a path is gone, and its postings with it. -/
theorem remove_cases (h : s.remove path = .ok s') :
    s'.docs.get? path = none ∧ (∀ p, p ≠ path → s'.docs.get? p = s.docs.get? p) ∧
      ∃ terms : Field → List RawText, ∀ f, (terms f).foldlM (removePosting path) (s.bucket f) = .ok (s'.bucket f) := by
  unfold remove at h
  split at h
  · rename_i hnone
    obtain rfl := Except.ok.inj h
    exact ⟨hnone, fun _ _ => rfl, fun _ => [], fun _ => rfl⟩
  · obtain ⟨old, -, h⟩ := bind_eq_ok.1 h
    obtain ⟨s₁, hterms, h⟩ := bind_eq_ok.1 h
    obtain rfl := pure_eq_ok.1 h
    obtain ⟨hdocs, hbuckets⟩ := updateTerms_cases hterms
    refine ⟨?_, fun p hp => ?_, old.termKeys, hbuckets⟩
    · rw [Bucket.get?_erase, if_pos rfl]
    · rw [Bucket.get?_erase, if_neg (Ne.symm hp), hdocs]

theorem add_cases (h : s.add d = .ok s') :
    s'.docs.get? d.path = some d.toRecord ∧ (∀ p, p ≠ d.path → s'.docs.get? p = s.docs.get? p) ∧
      ∀ f, (d.termKeys f).foldlM (addPosting d.path) (s.bucket f) = .ok (s'.bucket f) := by
  unfold add at h
  split at h
  · cases h
  · split at h
    · cases h
    · obtain ⟨hdocs, hbuckets⟩ := updateTerms_cases h
      refine ⟨?_, fun p hp => ?_, hbuckets⟩
      · rw [hdocs, Bucket.get?_insert, if_pos rfl]
      · rw [hdocs, Bucket.get?_insert, if_neg (Ne.symm hp)]

theorem remove_spares (h : s.remove path = .ok s') : Spares path path s s' ∧ s'.docs.get? path = none := by
  obtain ⟨hnone, hdocs, terms, hbuckets⟩ := remove_cases h
  exact ⟨⟨hdocs, fun f => foldlM_sameOthers removePosting_sameOthers (hbuckets f)⟩, hnone⟩

theorem put_cases (h : s.put d = .ok s') : ∃ s₁, s.remove d.path = .ok s₁ ∧ s₁.add d = .ok s' :=
  bind_eq_ok.1 (mapError_eq_ok.1 h)

theorem put_spares (h : s.put d = .ok s') :
    Spares d.path d.path.mended s s' ∧ s'.docs.get? d.path = some d.toRecord ∧
      ∀ f, ∀ t ∈ d.termKeys f, Has d.path.mended (s'.bucket f) t := by
  obtain ⟨s₁, hremove, hadd⟩ := put_cases h
  obtain ⟨-, hdocs₁, terms, hbuckets₁⟩ := remove_cases hremove
  obtain ⟨hdoc, hdocs, hbuckets⟩ := add_cases hadd
  refine ⟨⟨fun p hp => (hdocs p hp).trans (hdocs₁ p hp), fun f => ?_⟩, hdoc, fun f t ht => ?_⟩
  · have hremoved := foldlM_sameOthers removePosting_sameOthers_mended (hbuckets₁ f)
    exact hremoved.trans (foldlM_sameOthers addPosting_sameOthers (hbuckets f))
  · exact addPostings_has (hbuckets f) (.inl ht)

/-- Storing leaves the paths other than the document's own exactly when that is a text, or put in nowhere. -/
theorem put_spares_iff (h : s.put d = .ok s') :
    Spares d.path d.path s s' ↔ d.path.IsText ∨ ∀ f, d.termKeys f = [] := by
  obtain ⟨s₁, hremove, hadd⟩ := put_cases h
  obtain ⟨-, hdocs₁, terms, hbuckets₁⟩ := remove_cases hremove
  obtain ⟨-, hdocs, hbuckets⟩ := add_cases hadd
  have hremoved : ∀ f, SameOthers d.path (s.bucket f) (s₁.bucket f) := fun f =>
    foldlM_sameOthers removePosting_sameOthers (hbuckets₁ f)
  have hiff : ∀ f, SameOthers d.path (s.bucket f) (s'.bucket f) ↔ d.path.IsText ∨ d.termKeys f = [] := fun f =>
    .trans ⟨fun h t => (h t).trans (hremoved f t).symm, (hremoved f).trans⟩ (addPostings_sameOthers_iff (hbuckets f))
  rw [← forall_or_left, ← forall_congr' hiff]
  exact ⟨(·.postings), fun h => ⟨fun p hp => (hdocs p hp).trans (hdocs₁ p hp), h⟩⟩

end Stores
end Store

namespace Database

/-- An update that succeeds leaves the database open, with the store that it makes. -/
theorem update_eq_ok {db db' : Database} {f : Store → Except StoreError Store} (h : db.update f = .ok db') :
    db'.isOpen = true ∧ f db.store = .ok db'.store := by
  unfold update view at h
  split at h
  · rename_i hopen
    obtain ⟨s, hs, rfl⟩ := map_eq_ok.1 h
    exact ⟨hopen, hs⟩
  · cases h

/-- What storing a document has done. -/
structure Stored (d : Document) (db db' : Database) : Prop where
  spares : db.store.Spares d.path d.path.mended db'.store
  spares_iff : db.store.Spares d.path d.path db'.store ↔ d.path.IsText ∨ ∀ f, d.termKeys f = []
  get : db'.get d.path = .ok d.mended
  listed : ∀ f, ∀ t ∈ d.termKeys f, ∃ ps, db'.search f t = .ok (some ps) ∧ d.path.mended ∈ ps ∧
    (d.path ∈ ps ↔ d.path.IsText)

/-- **An update of one path never disturbs another, whatever the store holds, as far as the paths are
texts.** The documents under other keys stay as they are stored, and so do, under every term of every field, the
other paths, in their order; a path under which a document was stored stands under each of the document's
terms. A path that is no text never does: in its place each list gains the path as mended. -/
theorem update_spares (db : Database) :
    (∀ d db', db.put d = .ok db' → Stored d db db') ∧
    ∀ path db', db.delete path = .ok db' → db.store.Spares path path db'.store ∧
      db'.get path = .error (.notFound path) := by
  constructor
  · intro d db' h
    unfold put at h
    split at h
    · obtain ⟨hopen, hput⟩ := update_eq_ok h
      obtain ⟨hspares, hdoc, hhas⟩ := Store.put_spares hput
      refine ⟨hspares, Store.put_spares_iff hput, ?_, fun f t ht => ?_⟩
      · rw [get, view, if_pos hopen, Store.get, hdoc]
        show (Document.ofRecord _).mapError _ = _
        rw [Document.ofRecord_toRecord]
        rfl
      · obtain ⟨ps, hps, hmem⟩ := hhas f t ht
        refine ⟨ps, ?_, hmem, Store.isText_of_mem_postings hps d.path, fun hpath => hpath.mended ▸ hmem⟩
        rw [search, view, if_pos hopen]
        exact hps
    · cases h
  · intro path db' h
    unfold delete at h
    split at h
    · obtain ⟨hopen, hdelete⟩ := update_eq_ok h
      obtain ⟨hspares, hnone⟩ := Store.remove_spares (mapError_eq_ok.1 hdelete)
      refine ⟨hspares, ?_⟩
      rw [get, view, if_pos hopen, Store.get, hnone]
    · cases h

/-- A list out of order with paths in it twice, and documents under each other's keys. -/
def damaged : Store where
  docs := ⟨[("p", Document.toRecord ⟨"q", "", "", some ["A"], none, none⟩),
    ("q", Document.toRecord ⟨"p", "", "", none, none, none⟩)]⟩
  defs := Store.putPostings ⟨[]⟩ "A" ["z", "p", "a", "p", "z"]
  refs := ⟨[]⟩
  full := ⟨[]⟩

theorem damaged_holds : damaged.Holds fun p => if p = "p" then some ⟨"q", "", "", some ["A"], none, none⟩
    else if p = "q" then some ⟨"p", "", "", none, none, none⟩ else none := by
  have hnone : (⟨[]⟩ : Bucket RawText).Readable := fun _ => ⟨none, rfl⟩
  refine ⟨⟨by decide, fun p => ?_⟩, fun f => ?_⟩
  · simp only [damaged, Bucket.get?, Bucket.lookup, eq_comm (a := p)]
    split_ifs <;> rfl
  · cases f
    · exact hnone.putPostings "A" _
    · exact hnone
    · exact hnone

/-- A document stored there over the other, one stored under a byte that belongs to no character, and the
other deleted. -/
theorem damaged_update_spares :
    let db : Database := ⟨damaged, true⟩
    let d : Document := ⟨"p", "", "", some ["B", "A"], none, none⟩
    let stray : Document := ⟨⟨[0xff]⟩, "", "", some ["A"], none, none⟩
    (∃ db', db.put d = .ok db' ∧ Stored d db db' ∧ db.store.Spares "p" "p" db'.store) ∧
    (∃ db', db.put stray = .ok db' ∧ Stored stray db db' ∧ ¬ db.store.Spares stray.path stray.path db'.store) ∧
    ∃ db', db.delete "p" = .ok db' ∧ db.store.Spares "p" "p" db'.store ∧
      db'.get "p" = .error (.notFound "p") := by
  intro db d stray
  obtain ⟨hput, hdelete⟩ := update_spares db
  have hstored : ∀ d, Store.IsKey d.path → ∃ db', db.put d = .ok db' := by
    intro d hkey
    obtain ⟨s, hs, -⟩ := (Store.put_holds damaged_holds d).1 hkey
    exact ⟨⟨s, true⟩, by simp [db, put, update, view, hs, Functor.map, Except.map]⟩
  obtain ⟨db₁, h₁⟩ := hstored d (by decide)
  obtain ⟨db₂, h₂⟩ := hstored stray (by decide)
  obtain ⟨s₃, hs₃, -⟩ := Store.remove_holds damaged_holds "p"
  have h₃ : db.delete "p" = .ok ⟨s₃, true⟩ := by
    simp [db, delete, update, view, Store.delete_of_remove hs₃, Functor.map, Except.map]
  have hterms : stray.termKeys .defs = ["A"] := by
    have hterm : isTerm "A" = true := by decide
    simp [stray, Document.termKeys, Document.terms, termsOf, keepTerms, hterm]
  refine ⟨⟨db₁, h₁, hput d db₁ h₁, (hput d db₁ h₁).spares_iff.2 (.inl (RawText.isText_ofString "p"))⟩,
    ⟨db₂, h₂, hput stray db₂ h₂, fun hspares => ?_⟩, ⟨_, h₃, hdelete "p" _ h₃⟩⟩
  rcases (hput stray db₂ h₂).spares_iff.1 hspares with htext | hnone
  · exact (by decide : ¬ stray.path.IsText) htext
  · exact absurd (hterms.symm.trans (hnone .defs)) (by simp)

end Database
end ClassAtlas.Index
