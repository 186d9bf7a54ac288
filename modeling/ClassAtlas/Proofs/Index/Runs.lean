import ClassAtlas.Proofs.Index.Consistency

/-! What a database answers after any run of calls.

A run starts from an empty database and is any list of calls: documents stored, paths deleted,
the database closed and opened again, in any order. A call that fails changes nothing. A
document is *current* under a path when it was stored there last and not deleted since
(`Current`), counting only calls that succeeded.

`run_answers`: on an open database, if documents were stored under texts only, every answer is the one
that the current documents give. The document under a path is the current one, a search finds the paths
whose current documents have the term, and both lists of paths are in the order of their bytes. What
carries the proof is that one call keeps the store an index of the current documents (`after_indexes`). -/
namespace ClassAtlas.Index.Database

/-! ### Runs -/

inductive Call where
  | put (d : Document)
  | delete (path : RawText)
  | close
  | reopen
deriving Repr, DecidableEq

/-- The path whose document a call sets or removes. -/
def Call.path? : Call → Option RawText
  | put d => some d.path
  | delete path => some path
  | close | reopen => none

def perform (db : Database) : Call → Except StoreError Database
  | .put d => db.put d
  | .delete path => db.delete path
  | .close => .ok db.close
  | .reopen => .ok db.reopen

/-- The database after a call. -/
def after (db : Database) (c : Call) : Database :=
  match db.perform c with
  | .ok db => db
  | .error _ => db

def run (db : Database) : List Call → Database
  | [] => db
  | c :: rest => run (db.after c) rest

def Succeeds (db : Database) (c : Call) : Prop := ∃ db', db.perform c = .ok db'

theorem run_append (db : Database) (a b : List Call) : db.run (a ++ b) = (db.run a).run b := by
  induction a generalizing db with
  | nil => rfl
  | cons c rest ih => exact ih _

theorem after_of_ok {db db' : Database} {c : Call} (h : db.perform c = .ok db') : db.after c = db' := by
  unfold after
  rw [h]

theorem after_of_error {db : Database} {c : Call} {e : StoreError} (h : db.perform c = .error e) :
    db.after c = db := by
  unfold after
  rw [h]

/-- Storing and deleting leave a database as open as it was. -/
theorem isOpen_after (db : Database) (c : Call) :
    (db.after c).isOpen = match c with
      | .close => false
      | .reopen => true
      | _ => db.isOpen := by
  cases c with
  | put d =>
    simp only [after, perform, put, update, view]
    cases hopen : db.isOpen
    · simp [hopen]
    · cases hs : db.store.put d <;> simp [Functor.map, Except.map, hopen]
  | delete path =>
    simp only [after, perform, delete, update, view]
    cases hopen : db.isOpen
    · simp [hopen]
    · cases hs : db.store.delete path <;> simp [Functor.map, Except.map, hopen]
  | close => rfl
  | reopen => rfl

/-! ### Current documents -/

/-- A document was stored under the path by a call that succeeded, and no later call on the
path did. -/
def Current (calls : List Call) (path : RawText) (d : Document) : Prop :=
  ∃ before later, calls = before ++ .put d :: later ∧ d.path = path ∧ (empty.run before).Succeeds (.put d) ∧
    ∀ mid c rest, later = mid ++ c :: rest → c.path? = some path →
      ¬ (empty.run (before ++ .put d :: mid)).Succeeds c

theorem not_current_nil (path : RawText) (d : Document) : ¬ Current [] path d := by
  rintro ⟨before, later, h, _⟩
  simp at h

/-- The last of some items, met while looking for another among them. -/
theorem append_singleton_eq {α : Type} {xs before later : List α} {x y : α}
    (h : xs ++ [x] = before ++ y :: later) :
    (xs = before ∧ x = y ∧ later = []) ∨ ∃ rest, later = rest ++ [x] ∧ xs = before ++ y :: rest := by
  rcases List.eq_nil_or_concat later with rfl | ⟨rest, z, rfl⟩
  · obtain ⟨hxs, hx⟩ := List.append_inj' h rfl
    exact .inl ⟨hxs, List.singleton_inj.1 hx, rfl⟩
  · rw [List.concat_eq_append, ← List.cons_append, ← List.append_assoc] at h
    obtain ⟨hxs, hx⟩ := List.append_inj' h rfl
    exact .inr ⟨rest, by rw [List.concat_eq_append, hx], hxs⟩

/-- What one more call makes current: the document it stores, if it succeeds, and otherwise
what was current before, unless the call succeeds and is on the same path. -/
theorem current_concat (calls : List Call) (c : Call) (path : RawText) (d : Document) :
    Current (calls ++ [c]) path d ↔
      ((empty.run calls).Succeeds c ∧ c = .put d ∧ d.path = path) ∨
        (¬ ((empty.run calls).Succeeds c ∧ c.path? = some path) ∧ Current calls path d) := by
  constructor
  · rintro ⟨before, later, hcalls, hpath, hput, hlater⟩
    rcases append_singleton_eq hcalls with ⟨rfl, rfl, rfl⟩ | ⟨later, rfl, rfl⟩
    · exact .inl ⟨hput, rfl, hpath⟩
    · refine .inr ⟨fun h => hlater later c [] rfl h.2 h.1, before, later, rfl, hpath, hput, ?_⟩
      intro mid c' rest hmid
      exact hlater mid c' (rest ++ [c]) (by rw [hmid]; simp)
  · rintro (⟨hc, rfl, hpath⟩ | ⟨hc, before, later, rfl, hpath, hput, hlater⟩)
    · exact ⟨calls, [], rfl, hpath, hc, fun mid c rest h => absurd h (by simp)⟩
    · refine ⟨before, later ++ [c], by simp, hpath, hput, ?_⟩
      intro mid c' rest hmid hc'
      rcases append_singleton_eq hmid with ⟨rfl, rfl, rfl⟩ | ⟨rest, rfl, rfl⟩
      · exact fun hs => hc ⟨hs, hc'⟩
      · exact hlater mid c' rest rfl hc'

/-! ### One call -/

/-- Whatever its path's bytes, a call leaves a store that holds documents. -/
theorem after_holds {db : Database} {m : Contents} (h : db.store.Holds m) (c : Call) :
    ∃ m', (db.after c).store.Holds m' := by
  cases c with
  | put d =>
    cases hopen : db.isOpen with
    | false =>
      rw [after_of_error (e := .putting d.path .closed) (by simp [perform, put, hopen])]
      exact ⟨m, h⟩
    | true =>
      by_cases hkey : Store.IsKey d.path
      · obtain ⟨s, hs, hholds⟩ := (Store.put_holds h d).1 hkey
        have hput : db.perform (.put d) = .ok { db with store := s } := by
          simp [perform, put, update, view, hopen, hs, Functor.map, Except.map]
        rw [after_of_ok hput]
        exact ⟨_, hholds⟩
      · obtain ⟨e, he⟩ := (Store.put_holds h d).2 hkey
        rw [after_of_error (e := e) (by simp [perform, put, update, view, hopen, he, Functor.map, Except.map])]
        exact ⟨m, h⟩
  | delete path =>
    cases hopen : db.isOpen with
    | false =>
      rw [after_of_error (e := .deleting path .closed) (by simp [perform, delete, hopen])]
      exact ⟨m, h⟩
    | true =>
      obtain ⟨s, hs, hholds⟩ := Store.remove_holds h path
      have hdelete : db.perform (.delete path) = .ok { db with store := s } := by
        simp [perform, delete, update, view, hopen, Store.delete_of_remove hs, Functor.map, Except.map]
      rw [after_of_ok hdelete]
      exact ⟨_, hholds⟩
  | close | reopen => exact ⟨m, h⟩

theorem run_holds {db : Database} {m : Contents} (h : db.store.Holds m) (calls : List Call) :
    ∃ m', (db.run calls).store.Holds m' := by
  induction calls generalizing db m with
  | nil => exact ⟨m, h⟩
  | cons c rest ih =>
    obtain ⟨m₁, h₁⟩ := after_holds h c
    exact ih h₁

/-- What is stored by the call goes by a text. -/
def Call.StoresText : Call → Prop
  | put d => d.path.IsText
  | delete _ | close | reopen => True

section Step
variable {db : Database} {m : Contents} (h : db.store.Indexes m)
include h

/-- Storing under a text succeeds on an open database if the text can be a key, and fails otherwise. -/
theorem perform_put {d : Document} (htext : d.path.IsText) :
    (db.isOpen = true ∧ Store.IsKey d.path ∧
      ∃ s, db.perform (.put d) = .ok { db with store := s } ∧ s.Indexes (m.set d.path (some d))) ∨
    (¬ (db.isOpen = true ∧ Store.IsKey d.path) ∧ ∃ e, db.perform (.put d) = .error e) := by
  obtain ⟨hgood, hbad⟩ := Store.put_indexes h htext
  cases hopen : db.isOpen with
  | false => exact .inr ⟨by simp, .putting d.path .closed, by simp [perform, put, hopen]⟩
  | true =>
    by_cases hkey : Store.IsKey d.path
    · obtain ⟨s, hs, hind⟩ := hgood hkey
      refine .inl ⟨rfl, hkey, s, ?_, hind⟩
      simp [perform, put, update, view, hopen, hs, Functor.map, Except.map]
    · obtain ⟨e, he⟩ := hbad hkey
      refine .inr ⟨fun hk => hkey hk.2, e, ?_⟩
      simp [perform, put, update, view, hopen, he, Functor.map, Except.map]

/-- Deleting succeeds on every open database. -/
theorem perform_delete (path : RawText) :
    (db.isOpen = true ∧
      ∃ s, db.perform (.delete path) = .ok { db with store := s } ∧ s.Indexes (m.set path none)) ∨
    (db.isOpen = false ∧ ∃ e, db.perform (.delete path) = .error e) := by
  cases hopen : db.isOpen with
  | false => exact .inr ⟨rfl, .deleting path .closed, by simp [perform, delete, hopen]⟩
  | true =>
    obtain ⟨s, hs, hind⟩ := Store.delete_indexes h path
    refine .inl ⟨rfl, s, ?_, hind⟩
    simp [perform, delete, update, view, hopen, hs, Functor.map, Except.map]

/-- Storing succeeds on an open database under every path that can be a key. -/
theorem succeeds_put (d : Document) :
    db.Succeeds (.put d) ↔ db.isOpen = true ∧ Store.IsKey d.path := by
  obtain ⟨hgood, hbad⟩ := Store.put_holds h.holds d
  unfold Succeeds perform put update view
  cases hopen : db.isOpen with
  | false => simp
  | true =>
    by_cases hkey : Store.IsKey d.path
    · obtain ⟨s, hs, -⟩ := hgood hkey
      simp [hs, hkey, Functor.map, Except.map]
    · obtain ⟨e, he⟩ := hbad hkey
      simp [he, hkey, Functor.map, Except.map]

theorem succeeds_delete (path : RawText) : db.Succeeds (.delete path) ↔ db.isOpen = true := by
  rcases perform_delete h path with ⟨hopen, s, hs, _⟩ | ⟨hclosed, e, he⟩
  · exact ⟨fun _ => hopen, fun _ => ⟨_, hs⟩⟩
  · rw [hclosed]
    refine ⟨?_, fun hk => by cases hk⟩
    rintro ⟨db', hdb'⟩
    rw [he] at hdb'
    cases hdb'

/-- A call that fails leaves the store and what it indexes. -/
theorem after_failed {c : Call} {e : StoreError} (he : db.perform c = .error e) :
    ∃ m', (db.after c).store.Indexes m' ∧ ∀ p d, m' p = some d ↔
      (db.Succeeds c ∧ c = .put d ∧ d.path = p) ∨ (¬ (db.Succeeds c ∧ c.path? = some p) ∧ m p = some d) := by
  have hnot : ¬ db.Succeeds c := by
    rintro ⟨db', hdb'⟩
    rw [he] at hdb'
    cases hdb'
  refine ⟨m, ?_, fun p d => by simp [hnot]⟩
  rw [after_of_error he]
  exact h

/-- One call takes a store that indexes some documents to one that indexes those documents
with the call's own change. -/
theorem after_indexes {c : Call} (hc : c.StoresText) :
    ∃ m', (db.after c).store.Indexes m' ∧ ∀ p d, m' p = some d ↔
      (db.Succeeds c ∧ c = .put d ∧ d.path = p) ∨ (¬ (db.Succeeds c ∧ c.path? = some p) ∧ m p = some d) := by
  cases c with
  | put d =>
    rcases perform_put h hc with ⟨_, _, s, hs, hind⟩ | ⟨_, e, he⟩
    · have hsucc : db.Succeeds (.put d) := ⟨_, hs⟩
      refine ⟨m.set d.path (some d), by rw [after_of_ok hs]; exact hind, fun p d' => ?_⟩
      simp only [Contents.set, Call.path?, hsucc, true_and, Option.some.injEq, Call.put.injEq]
      by_cases hp : p = d.path
      · subst hp
        grind
      · rw [if_neg hp]
        grind
    · exact after_failed h he
  | delete path =>
    rcases perform_delete h path with ⟨_, s, hs, hind⟩ | ⟨_, e, he⟩
    · have hsucc : db.Succeeds (.delete path) := ⟨_, hs⟩
      refine ⟨m.set path none, by rw [after_of_ok hs]; exact hind, fun p d' => ?_⟩
      simp only [Contents.set, Call.path?, hsucc, true_and, Option.some.injEq]
      by_cases hp : p = path
      · simp [hp]
      · simp [hp, Ne.symm hp]
    · exact after_failed h he
  | close => exact ⟨m, h, fun p d => by simp [Call.path?]⟩
  | reopen => exact ⟨m, h, fun p d => by simp [Call.path?]⟩

end Step

/-! ### Whole runs -/

/-- The store after some calls indexes the current documents. -/
def Consistent (calls : List Call) : Prop :=
  ∃ m, (empty.run calls).store.Indexes m ∧ ∀ p d, m p = some d ↔ Current calls p d

theorem consistent_nil : Consistent [] := by
  refine ⟨.none, Store.empty_indexes, fun p d => ?_⟩
  simp [Contents.none, not_current_nil]

theorem consistent_concat {calls : List Call} (h : Consistent calls) {c : Call} (hc : c.StoresText) :
    Consistent (calls ++ [c]) := by
  obtain ⟨m, hind, hcur⟩ := h
  obtain ⟨m', hind', hcur'⟩ := after_indexes hind hc
  refine ⟨m', ?_, fun p d => ?_⟩
  · rw [run_append]
    exact hind'
  · rw [hcur', current_concat, hcur]

theorem consistent_append {done rest : List Call} (h : Consistent done) (hrest : ∀ c ∈ rest, c.StoresText) :
    Consistent (done ++ rest) := by
  induction rest generalizing done with
  | nil => rwa [List.append_nil]
  | cons c rest ih =>
    obtain ⟨hc, hrest⟩ := List.forall_mem_cons.1 hrest
    rw [← List.singleton_append, ← List.append_assoc]
    exact ih (consistent_concat h hc) hrest

theorem run_consistent {calls : List Call} (hcalls : ∀ c ∈ calls, c.StoresText) : Consistent calls :=
  consistent_append consistent_nil hcalls

/-! ### Answers -/

/-- Strictly ascending in the order of bytes. -/
def Ascending (paths : List RawText) : Prop := paths.Pairwise fun a b => a.bytes < b.bytes

/-- What an open database says of the calls made on it. -/
structure Answers (calls : List Call) (db : Database) : Prop where
  puts : ∀ d, db.Succeeds (.put d) ↔ d.path ≠ .empty ∧ d.path.size ≤ Store.maxKeySize
  deletes : ∀ path, db.Succeeds (.delete path)
  found : ∀ path d, db.get path = .ok d ↔ Current calls path d
  missing : ∀ path, (∀ d, ¬ Current calls path d) → db.get path = .error (.notFound path)
  search : ∀ f t, ∃ paths, db.search f t = .ok paths ∧ paths ≠ some [] ∧ Ascending (paths.getD []) ∧
    ∀ p, p ∈ paths.getD [] ↔ ∃ d, Current calls p d ∧ t ∈ d.termKeys f
  terms : ∀ f t, t ∈ (db.store.bucket f).keys ↔ ∃ p d, Current calls p d ∧ t ∈ d.termKeys f
  paths : ∃ paths, db.paths = .ok paths ∧ Ascending paths ∧ ∀ p, p ∈ paths ↔ ∃ d, Current calls p d

/-- **After any run of calls, an open database answers from the current documents**, if what was stored goes
by texts. -/
theorem run_answers {calls : List Call} (hcalls : ∀ c ∈ calls, c.StoresText)
    (hopen : (empty.run calls).isOpen = true) : Answers calls (empty.run calls) := by
  obtain ⟨m, hind, hcur⟩ := run_consistent hcalls
  generalize empty.run calls = db at *
  have hview : ∀ {α : Type} (f : Store → Except StoreError α), db.view f = f db.store := by
    intro α f
    simp [view, hopen]
  have hfinds : ∀ f t p, m.Finds f t p ↔ ∃ d, Current calls p d ∧ t ∈ d.termKeys f := by
    intro f t p
    simp only [Contents.Finds, hcur]
  refine ⟨fun d => ?_, fun path => (succeeds_delete hind path).2 hopen, fun path d => ?_,
    fun path hnone => ?_, fun f t => ?_, fun f t => ?_, ?_⟩
  · rw [succeeds_put hind]
    simp [hopen, Store.IsKey]
  · rw [get, hview, hind.get, ← hcur]
    cases m path <;> simp
  · rw [get, hview, hind.get]
    cases hm : m path with
    | none => rfl
    | some d => exact absurd ((hcur path d).1 hm) (hnone d)
  · obtain ⟨paths, hpaths, hne, hord, hmem⟩ := (hind.postings f).postings t
    refine ⟨paths, by rw [search, hview]; exact hpaths, hne, hord, fun p => ?_⟩
    rw [hmem, hfinds]
  · rw [(hind.postings f).mem_keys]
    simp only [hfinds]
  · refine ⟨db.store.paths, by rw [paths, hview], hind.ordered, fun p => ?_⟩
    rw [hind.mem_paths]
    simp only [hcur]

/-- Two documents in turn under one path, a deletion, a path that is no text deleted, and a call on a
closed database. -/
theorem run_answers_reopened :
    let calls : List Call :=
      [.put ⟨"a/B", "", "class B", some ["B"], none, none⟩, .put ⟨"a/B", "", "", some ["C", ""], none, some []⟩,
        .put ⟨.empty, "", "", none, none, none⟩, .put ⟨"é", "", "", none, some ["C"], none⟩, .delete "é",
        .delete ⟨[0xff]⟩, .close, .delete "a/B", .reopen]
    (∀ c ∈ calls, c.StoresText) ∧ (empty.run calls).isOpen = true ∧ Answers calls (empty.run calls) := by
  intro calls
  have hcalls : ∀ c ∈ calls, c.StoresText := by
    simp [calls, Call.StoresText, RawText.isText_ofString]
    exact ⟨"", rfl⟩
  have hopen : (empty.run calls).isOpen = true := by simp [calls, run, isOpen_after]
  exact ⟨hcalls, hopen, run_answers hcalls hopen⟩

end ClassAtlas.Index.Database
