import ClassAtlas.Proofs.Index.Leftovers
import ClassAtlas.Proofs.Index.Runs

/-! Updates that commute and cancel.

Buckets keep their keys in order and posting lists their paths, and no term is kept without a
path. So a store is decided, entry by entry, by the documents it indexes (`Indexes.unique`): two
ways to the same documents lead to the same four buckets. What an update does to the documents is
plain (`Call.change`), and `run_commutes` reads off which updates may trade places, which one
makes another needless and which one takes another back.

All this takes texts for paths. Storing a document under another path leaves postings that nothing takes
back, unless the document has no terms (`Database.Leaves`), and then neither storing again nor deleting
gives what it should. Nor do such documents come to the same lists in every order (`search_stray_order`). -/
namespace ClassAtlas.Index

/-! ### Stores are decided by what they index -/

namespace Bucket

/-- One bucket lists a relation. -/
theorem Lists.unique {b b' : Bucket RawText} {R : RawText → RawText → Prop} (h : b.Lists R)
    (h' : b'.Lists R) : b = b' := by
  refine eq_of_get? h.ordered h'.ordered fun t => ?_
  have habsent : ∀ {b b' : Bucket RawText}, b.Lists R → b'.Lists R → b.get? t = none →
      b'.get? t = none := by
    intro b b' h h' hnone
    rw [Option.eq_none_iff_forall_not_mem]
    intro record hget
    obtain ⟨ps, -, hne, -, hiff⟩ := h'.present t record hget
    obtain ⟨p, hp⟩ := List.exists_mem_of_ne_nil ps hne
    exact h.absent t hnone p ((hiff p).1 hp)
  cases hget : b.get? t with
  | none => exact (habsent h h' hget).symm
  | some record =>
    cases hget' : b'.get? t with
    | none => exact absurd (habsent h' h hget') (by simp [hget])
    | some record' =>
      obtain ⟨ps, rfl, -, hord, hiff⟩ := h.present t record hget
      obtain ⟨qs, rfl, -, hord', hiff'⟩ := h'.present t record' hget'
      rw [Store.eq_of_ordered hord hord' fun p => (hiff p).trans (hiff' p).symm]

end Bucket

/-- **The documents decide the store**, in all four buckets. -/
theorem Store.Indexes.unique {s s' : Store} {m : Contents} (h : s.Indexes m) (h' : s'.Indexes m) : s = s' :=
  eq_of_buckets (h.toHasDocuments.docs_eq h'.toHasDocuments) fun f => (h.postings f).unique (h'.postings f)

namespace Database

/-! ### Updates and documents -/

/-- What a call on an open database does to the documents. -/
def Call.change (m : Contents) : Call → Contents
  | put d => if Store.IsKey d.path then m.set d.path (some d) else m
  | delete path => m.set path none
  | close | reopen => m

/-- A call that stores or deletes. -/
def Call.IsUpdate (c : Call) : Prop := c.path?.isSome = true

variable {db : Database} {m : Contents}

theorem after_change (h : db.store.Indexes m) (hopen : db.isOpen = true) {c : Call} (hc : c.StoresText) :
    (db.after c).store.Indexes (c.change m) := by
  cases c with
  | put d =>
    rcases perform_put h hc with ⟨-, hkey, s, hs, hind⟩ | ⟨hnot, e, he⟩
    · rw [after_of_ok hs, Call.change, if_pos hkey]
      exact hind
    · rw [after_of_error he, Call.change, if_neg fun hkey => hnot ⟨hopen, hkey⟩]
      exact h
  | delete path =>
    rcases perform_delete h path with ⟨-, s, hs, hind⟩ | ⟨hclosed, -⟩
    · rw [after_of_ok hs]
      exact hind
    · rw [hopen] at hclosed
      cases hclosed
  | close => exact h
  | reopen => exact h

theorem isOpen_after_update {c : Call} (hc : c.IsUpdate) : (db.after c).isOpen = db.isOpen := by
  rw [isOpen_after]
  cases c with
  | put d => rfl
  | delete path => rfl
  | close => cases hc
  | reopen => cases hc

/-- Updates fail on a closed database. -/
theorem after_closed (hclosed : db.isOpen = false) {c : Call} (hc : c.IsUpdate) : db.after c = db := by
  cases c with
  | put d => exact after_of_error (e := .putting d.path .closed) (by simp [perform, put, hclosed])
  | delete path => exact after_of_error (e := .deleting path .closed) (by simp [perform, delete, hclosed])
  | close => cases hc
  | reopen => cases hc

theorem run_closed (hclosed : db.isOpen = false) {calls : List Call} (hc : ∀ c ∈ calls, c.IsUpdate) :
    db.run calls = db := by
  induction calls with
  | nil => rfl
  | cons c rest ih =>
    rw [run, after_closed hclosed (hc c List.mem_cons_self)]
    exact ih fun c' hc' => hc c' (List.mem_cons_of_mem c hc')

theorem run_change (h : db.store.Indexes m) (hopen : db.isOpen = true) {calls : List Call}
    (hc : ∀ c ∈ calls, c.IsUpdate ∧ c.StoresText) :
    (db.run calls).isOpen = true ∧ (db.run calls).store.Indexes (calls.foldl Call.change m) := by
  induction calls generalizing db m with
  | nil => exact ⟨hopen, h⟩
  | cons c rest ih =>
    obtain ⟨⟨hupdate, htext⟩, hrest⟩ := List.forall_mem_cons.1 hc
    have hfirst : (db.after c).isOpen = true := by rw [isOpen_after_update hupdate, hopen]
    exact ih (after_change h hopen htext) hfirst hrest

/-- Two runs of updates that change the documents alike leave the same database. -/
theorem run_eq_of_change (h : db.store.Indexes m) {calls calls' : List Call}
    (hc : ∀ c ∈ calls, c.IsUpdate ∧ c.StoresText) (hc' : ∀ c ∈ calls', c.IsUpdate ∧ c.StoresText)
    (heq : calls.foldl Call.change m = calls'.foldl Call.change m) : db.run calls = db.run calls' := by
  cases hopen : db.isOpen with
  | false => rw [run_closed hopen fun c h => (hc c h).1, run_closed hopen fun c h => (hc' c h).1]
  | true =>
    obtain ⟨hopen₁, hind₁⟩ := run_change h hopen hc
    obtain ⟨hopen₂, hind₂⟩ := run_change h hopen hc'
    rw [← heq] at hind₂
    have hstore := hind₁.unique hind₂
    cases hrun : db.run calls
    cases hrun' : db.run calls'
    simp_all

/-- Updates that leave the documents as they were leave the database as it was. -/
theorem run_nil_of_change (h : db.store.Indexes m) {calls : List Call} (hc : ∀ c ∈ calls, c.IsUpdate ∧ c.StoresText)
    (heq : calls.foldl Call.change m = m) : db.run calls = db :=
  run_eq_of_change h hc (fun _ hc => absurd hc List.not_mem_nil) heq

/-! ### Trading places and taking back -/

namespace Call

/-- A change is made under the call's own path only. -/
theorem change_of_ne {c : Call} {p : RawText} (hne : c.path? ≠ some p) (m : Contents) : c.change m p = m p := by
  cases c with
  | put d =>
    have hp : p ≠ d.path := fun he => hne (congrArg some he.symm)
    rw [change]
    split
    · rw [Contents.set, if_neg hp]
    · rfl
  | delete path =>
    have hp : p ≠ path := fun he => hne (congrArg some he.symm)
    rw [change, Contents.set, if_neg hp]
  | close => rfl
  | reopen => rfl

/-- What a change makes of a path hangs on nothing but what was there. -/
theorem change_congr (c : Call) {m m' : Contents} {p : RawText} (h : m p = m' p) : c.change m p = c.change m' p := by
  cases c with
  | put d =>
    rw [change, change]
    split
    · simp only [Contents.set, h]
    · exact h
  | delete path => simp only [change, Contents.set, h]
  | close => exact h
  | reopen => exact h

/-- Changes under different paths may be made in either order. -/
theorem change_comm {c c' : Call} (hne : c.path? ≠ c'.path?) (m : Contents) :
    c'.change (c.change m) = c.change (c'.change m) := by
  funext p
  by_cases hp : c.path? = some p
  · have hp' : c'.path? ≠ some p := fun he => hne (hp.trans he.symm)
    rw [change_of_ne hp']
    exact c.change_congr (change_of_ne hp' m).symm
  · rw [change_of_ne hp (c'.change m)]
    exact c'.change_congr (change_of_ne hp m)

/-- Of two documents stored under one path the last stays. -/
theorem change_put_put {d d' : Document} (hpath : d'.path = d.path) (m : Contents) :
    (Call.put d).change ((Call.put d').change m) = (Call.put d).change m := by
  simp only [change, hpath]
  split
  · exact Contents.set_set ..
  · rfl

/-- A document stored where there was none and deleted again leaves no trace. -/
theorem change_put_delete {d : Document} {m : Contents} (habsent : m d.path = none) :
    (Call.delete d.path).change ((Call.put d).change m) = m := by
  simp only [change]
  split
  · rw [Contents.set_set, Contents.set_none_of_absent habsent]
  · exact Contents.set_none_of_absent habsent

end Call

/-! ### Paths that are no texts -/

/-- Storing the document leaves postings that are not taken back. -/
def Leaves (db : Database) (d : Document) : Prop :=
  db.Succeeds (.put d) ∧ ¬ d.path.IsText ∧ ∃ f, d.termKeys f ≠ []

section Leftovers
variable {d d' : Document} {s s' : Store}

theorem after_put (h : s.put d = .ok s') : (Database.mk s true).after (.put d) = ⟨s', true⟩ :=
  after_of_ok (by simp [perform, put, update, view, h, Functor.map, Except.map])

theorem after_delete {path : RawText} (h : s.delete path = .ok s') :
    (Database.mk s true).after (.delete path) = ⟨s', true⟩ :=
  after_of_ok (by simp [perform, delete, update, view, h, Functor.map, Except.map])

/-- Terms under which nothing grew are none. -/
theorem termKeys_eq_nil_of_length {f : Field} (h : ∀ t, (d.termKeys f).count t = 0) : d.termKeys f = [] :=
  List.eq_nil_iff_forall_not_mem.2 fun t ht => List.count_pos_iff.2 ht |>.ne' (h t)

variable (h : s.Holds m)
include h

/-- A document stored under a path that is no text and deleted again is gone, but not its postings. -/
theorem run_put_delete_iff (hpath : ¬ d.path.IsText) (hkey : Store.IsKey d.path) (habsent : m d.path = none) :
    (Database.mk s true).run [.put d, .delete d.path] = ⟨s, true⟩ ↔ ∀ f, d.termKeys f = [] := by
  obtain ⟨s₁, hs₁, hholds₁, hadd⟩ := Store.put_leaves h hpath hkey
  obtain ⟨s₂, hs₂, hholds₂, hsame⟩ := Store.remove_leaves hholds₁ hpath
  have hdocs := hholds₂.toHasDocuments
  rw [Contents.set_set, Contents.set_none_of_absent habsent] at hdocs
  rw [run, run, run, after_put hs₁, after_delete (Store.delete_of_remove hs₂)]
  constructor
  · intro heq f
    have hstore : s₂ = s := congrArg Database.store heq
    refine termKeys_eq_nil_of_length fun t => ?_
    have hlength := Store.length_addPostings hpath (hadd f) t
    rw [← hsame f, hstore] at hlength
    omega
  · intro hnone
    have hstore : s₂ = s := by
      refine Store.eq_of_buckets (hdocs.docs_eq h.toHasDocuments) fun f => ?_
      have hf := hadd f
      rw [hnone f] at hf
      exact (hsame f).trans (pure_eq_ok.1 hf)
    rw [hstore]

/-- One document stored over another under a path that is no text leaves the postings of the other. -/
theorem run_put_put_iff (hpath : ¬ d.path.IsText) (hkey : Store.IsKey d.path) (hsame : d'.path = d.path) :
    (Database.mk s true).run [.put d', .put d] = (Database.mk s true).run [.put d] ↔ ∀ f, d'.termKeys f = [] := by
  have hpath' : ¬ d'.path.IsText := hsame ▸ hpath
  have hkey' : Store.IsKey d'.path := hsame ▸ hkey
  obtain ⟨s₁, hs₁, hholds₁, hadd₁⟩ := Store.put_leaves h hpath' hkey'
  obtain ⟨s₂, hs₂, hholds₂, hadd₂⟩ := Store.put_leaves hholds₁ hpath hkey
  obtain ⟨s₃, hs₃, hholds₃, hadd₃⟩ := Store.put_leaves h hpath hkey
  have hdocs := hholds₂.toHasDocuments
  rw [hsame, Contents.set_set] at hdocs
  rw [run, run, run, run, run, after_put hs₁, after_put hs₂, after_put hs₃]
  constructor
  · intro heq f
    have hstore : s₂ = s₃ := congrArg Database.store heq
    refine termKeys_eq_nil_of_length fun t => ?_
    have hfirst := Store.length_addPostings hpath' (hadd₁ f) t
    have hsecond := Store.length_addPostings hpath (hadd₂ f) t
    have honce := Store.length_addPostings hpath (hadd₃ f) t
    rw [hstore] at hsecond
    omega
  · intro hnone
    have hstore : s₂ = s₃ := by
      refine Store.eq_of_buckets (hdocs.docs_eq hholds₃.toHasDocuments) fun f => ?_
      have hfirst := hadd₁ f
      rw [hnone f] at hfirst
      have hsecond := hadd₂ f
      rw [pure_eq_ok.1 hfirst] at hsecond
      exact Except.ok.inj (hsecond.symm.trans (hadd₃ f))
    rw [hstore]

end Leftovers

/-! ### All updates -/

/-- How updates of a database combine. That two databases are equal says that their four buckets
have the same entries; a call that fails changes nothing. -/
structure Commutes (db : Database) : Prop where
  puts : ∀ d, db.Succeeds (.put d) ↔ db.isOpen = true ∧ Store.IsKey d.path
  deletes : ∀ path, db.Succeeds (.delete path) ↔ db.isOpen = true
  stored : ∀ d, db.Succeeds (.put d) → (db.run [.put d]).get d.path = .ok d.mended
  put_put : ∀ d d', d.path.IsText → d'.path.IsText → d.path ≠ d'.path →
    db.run [.put d, .put d'] = db.run [.put d', .put d]
  put_over : ∀ d d', d'.path = d.path → (db.run [.put d', .put d] = db.run [.put d] ↔ ¬ db.Leaves d')
  put_delete : ∀ d, d.path ∉ db.store.paths → (db.run [.put d, .delete d.path] = db ↔ ¬ db.Leaves d)
  put_again : ∀ d, db.run [.put d, .put d] = db.run [.put d] ↔ ¬ db.Leaves d
  delete_again : ∀ path, db.run [.delete path, .delete path] = db.run [.delete path]
  delete_delete : ∀ p q, p ≠ q → db.run [.delete p, .delete q] = db.run [.delete q, .delete p]
  delete_put : ∀ path d, d.path.IsText → path ≠ d.path →
    db.run [.delete path, .put d] = db.run [.put d, .delete path]

/-- A call that fails may be left out in front. -/
theorem run_of_not_succeeds {c : Call} (h : ¬ db.Succeeds c) (rest : List Call) : db.run (c :: rest) = db.run rest := by
  cases hperform : db.perform c with
  | ok db' => exact absurd ⟨db', hperform⟩ h
  | error e => rw [run, after_of_error hperform]

section Commuting
variable (h : db.store.Indexes m)
include h

theorem run_comm {c c' : Call} (hc : c.IsUpdate ∧ c.StoresText) (hc' : c'.IsUpdate ∧ c'.StoresText)
    (hne : c.path? ≠ c'.path?) : db.run [c, c'] = db.run [c', c] :=
  run_eq_of_change h (by simp [hc, hc']) (by simp [hc, hc']) (Call.change_comm hne m)

theorem run_over {c c' : Call} (hc : c.IsUpdate ∧ c.StoresText) (hc' : c'.IsUpdate ∧ c'.StoresText)
    (heq : c'.change (c.change m) = c'.change m) : db.run [c, c'] = db.run [c'] :=
  run_eq_of_change h (by simp [hc, hc']) (by simp [hc']) heq

theorem put_over_iff {d d' : Document} (hsame : d'.path = d.path) :
    db.run [.put d', .put d] = db.run [.put d] ↔ ¬ db.Leaves d' := by
  by_cases hsucceeds : db.Succeeds (.put d')
  · obtain ⟨hopen, hkey⟩ := (succeeds_put h d').1 hsucceeds
    by_cases htext : d'.path.IsText
    · have htext' : d.path.IsText := hsame ▸ htext
      exact iff_of_true (run_over h ⟨rfl, htext⟩ ⟨rfl, htext'⟩ (Call.change_put_put hsame m))
        fun hleaves => hleaves.2.1 htext
    · obtain ⟨s, isOpen⟩ := db
      obtain rfl : isOpen = true := hopen
      rw [run_put_put_iff h.holds (hsame ▸ htext) (hsame ▸ hkey) hsame, Leaves]
      simp [hsucceeds, htext]
  · exact iff_of_true (run_of_not_succeeds hsucceeds _) fun hleaves => hsucceeds hleaves.1

theorem put_delete_iff {d : Document} (habsent : m d.path = none) :
    db.run [.put d, .delete d.path] = db ↔ ¬ db.Leaves d := by
  by_cases hsucceeds : db.Succeeds (.put d)
  · obtain ⟨hopen, hkey⟩ := (succeeds_put h d).1 hsucceeds
    by_cases htext : d.path.IsText
    · refine iff_of_true ?_ fun hleaves => hleaves.2.1 htext
      exact run_nil_of_change h (by simpa [Call.StoresText, Call.IsUpdate, Call.path?] using htext)
        (Call.change_put_delete habsent)
    · obtain ⟨s, isOpen⟩ := db
      obtain rfl : isOpen = true := hopen
      rw [run_put_delete_iff h.holds htext hkey habsent, Leaves]
      simp [hsucceeds, htext]
  · refine iff_of_true ?_ fun hleaves => hsucceeds hleaves.1
    rw [run_of_not_succeeds hsucceeds]
    exact run_nil_of_change h (by simp [Call.StoresText, Call.IsUpdate, Call.path?])
      (Contents.set_none_of_absent habsent)

theorem get_after_put {d : Document} (hsucceeds : db.Succeeds (.put d)) :
    (db.run [.put d]).get d.path = .ok d.mended := by
  obtain ⟨hopen, hkey⟩ := (succeeds_put h d).1 hsucceeds
  obtain ⟨s, hs, hholds⟩ := (Store.put_holds h.holds d).1 hkey
  obtain ⟨s₀, isOpen⟩ := db
  obtain rfl : isOpen = true := hopen
  rw [run, run, after_put hs, get, view, if_pos rfl, hholds.toHasDocuments.get]
  simp [Contents.set]

end Commuting

/-- **After any run of calls that stored under texts, updates of different paths commute, of two documents
under one path the last counts, and deleting takes a new document back without a trace**, as far as their
paths are texts; a document with terms under another path leaves its postings behind. -/
theorem run_commutes {calls : List Call} (hcalls : ∀ c ∈ calls, c.StoresText) : Commutes (empty.run calls) := by
  obtain ⟨m, h, -⟩ := run_consistent hcalls
  generalize empty.run calls = db at h
  have hdelete : ∀ path, (Call.delete path).IsUpdate ∧ (Call.delete path).StoresText := fun _ => ⟨rfl, trivial⟩
  refine ⟨succeeds_put h, succeeds_delete h, fun d => get_after_put h, fun d d' hd hd' hne => ?_,
    fun d d' => put_over_iff h, fun d habsent => put_delete_iff h ?_, fun d => put_over_iff h rfl,
    fun path => run_over h (hdelete path) (hdelete path) (Contents.set_set ..), fun p q hne => ?_,
    fun path d hd hne => ?_⟩
  · exact run_comm h ⟨rfl, hd⟩ ⟨rfl, hd'⟩ (by simpa [Call.path?] using hne)
  · rw [Option.eq_none_iff_forall_not_mem]
    exact fun d' hd' => habsent ((h.toHasDocuments.mem_paths d.path).2 ⟨d', hd'⟩)
  · exact run_comm h (hdelete p) (hdelete q) (by simpa [Call.path?] using hne)
  · exact run_comm h (hdelete path) ⟨rfl, hd⟩ (by simpa [Call.path?] using hne)

/-- A document stored under a byte that belongs to no character, and deleted: its posting is still there. -/
theorem run_commutes_stray :
    let calls : List Call := [.put ⟨"a/B", "", "", some ["B"], none, none⟩, .delete ⟨[0xff]⟩]
    let d : Document := ⟨⟨[0xff]⟩, "", "", some ["B"], none, none⟩
    (∀ c ∈ calls, c.StoresText) ∧ Commutes (empty.run calls) ∧ (empty.run calls).Leaves d ∧
      (empty.run calls).run [.put d, .delete d.path] ≠ empty.run calls ∧
      (empty.run calls).run [.put d, .put d] ≠ (empty.run calls).run [.put d] := by
  intro calls d
  have hcalls : ∀ c ∈ calls, c.StoresText := by
    simp [calls, Call.StoresText, RawText.isText_ofString]
  have hcommutes := run_commutes hcalls
  have hopen : (empty.run calls).isOpen = true := by simp [calls, run, isOpen_after, empty]
  have hterms : d.termKeys .defs = [.ofString "B"] := by
    have hterm : isTerm "B" = true := by decide
    simp [d, Document.termKeys, Document.terms, termsOf, keepTerms, hterm]
  have hleaves : (empty.run calls).Leaves d :=
    ⟨(hcommutes.puts d).2 ⟨hopen, by decide⟩, by decide, .defs, by simp [hterms]⟩
  obtain ⟨m, h, -⟩ := run_consistent hcalls
  refine ⟨hcalls, hcommutes, hleaves, fun heq => (hcommutes.put_delete d ?_).1 heq hleaves,
    fun heq => (hcommutes.put_again d).1 heq hleaves⟩
  rw [h.toHasDocuments.mem_paths]
  rintro ⟨d', hd'⟩
  exact (by decide : ¬ d.path.IsText) (h.named _ _ hd').2

/-- Two documents, one under a byte that belongs to no character, are found in the order in which they
came: the byte comes after every other path, and what it is listed as before most. -/
theorem search_stray_order :
    let stray : Document := ⟨⟨[0xff]⟩, "", "", some ["B"], none, none⟩
    let smile : Document := ⟨"😀", "", "", some ["B"], none, none⟩
    (empty.run [.put stray, .put smile]).search .defs "B" = .ok (some ["\ufffd", "😀"]) ∧
      (empty.run [.put smile, .put stray]).search .defs "B" = .ok (some ["😀", "\ufffd"]) := by
  decide +kernel

end Database
end ClassAtlas.Index
