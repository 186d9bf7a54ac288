import ClassAtlas.Proofs.Scan.Nesting
import ClassAtlas.Proofs.Text.Raw

/-! What a walk finds, said apart from the order in which it looks.

A thing to be found has a *place*: its position in a directory or an archive, the position in that of
what it is in, and so on. `Holds` says what is at a place below a root: a class file that no hidden
directory hides, whether it can be read or not, a class file or something unreadable in an archive that is
such a file, or in an archive inside. A root that is a link to a directory is no directory to a walk.

A walk whose archives do not nest too deep goes all the way and comes across exactly what is there,
each place once (`covers_root`). -/
namespace ClassAtlas

def FileNode.IsDirectory : FileNode → Prop
  | .directory .. => True
  | .file _ | .link _ => False

namespace Scan
open Archive

/-- What a walk has to account for: a class file, or what it could not read. -/
inductive Finding where
  | unit (unit : ClassUnit)
  | fault (name : RawText) (error : Error)

def Event.finding? : Event → Option Finding
  | .visit => none
  | .unit u => some (.unit u)
  | .unreadable name error => some (.fault name error)

/-- A way down by positions, from the outermost on. -/
abbrev Place := List Nat

/-! ### What there is -/

theorem isHidden_iff (name : RawText) : isHidden name = true ↔ ∃ rest : RawText, name = "." ++ rest := by
  obtain ⟨bytes⟩ := name
  rw [isHidden, beq_iff_eq]
  constructor
  · intro h
    obtain ⟨rest, rfl⟩ := List.head?_eq_some_iff.1 h
    exact ⟨⟨rest⟩, rfl⟩
  · rintro ⟨rest, h⟩
    exact congrArg (List.head? ·.bytes) h

mutual

/-- What an archive of a name holds. -/
inductive InArchive (opener : Opener) : Source → RawText → Bytes → Place → Finding → Prop
  | closed {source : Source} {name : RawText} {bytes : Bytes} {fault : Fault}
      (hopen : opener source bytes = .error fault) : InArchive opener source name bytes [] (.fault name fault.error)
  | entry {source : Source} {name : RawText} {bytes : Bytes} {entries : List Entry} {i : Nat} {e : Entry}
      {p : Place} {f : Finding} (hopen : opener source bytes = .ok entries) (he : entries[i]? = some e)
      (hin : InEntry opener name e p f) : InArchive opener source name bytes (i :: p) f

/-- What an entry of an archive holds. -/
inductive InEntry (opener : Opener) : RawText → Entry → Place → Finding → Prop
  | unread {archive : RawText} {e : Entry} {error : Error} (hfile : e.isDirectory = false)
      (hname : Path.isClass e.name = true ∨ Path.isArchive e.name = true) (hread : readEntry e = .error error) :
      InEntry opener archive e [] (.fault (entryName archive e.name) error)
  | classFile {archive : RawText} {e : Entry} {content : Bytes} (hfile : e.isDirectory = false)
      (hname : Path.isClass e.name = true) (hread : readEntry e = .ok content) :
      InEntry opener archive e [] (.unit ⟨entryName archive e.name, .ok content⟩)
  | archive {archive : RawText} {e : Entry} {content : Bytes} {p : Place} {f : Finding}
      (hfile : e.isDirectory = false) (hname : Path.isArchive e.name = true) (hread : readEntry e = .ok content)
      (hin : InArchive opener .memory (entryName archive e.name) content p f) : InEntry opener archive e p f

end

/-- What there is under a path that a walk does not list, and that goes by a name. -/
inductive InPath (w : Ways) (path name : RawText) : Place → Finding → Prop
  | classFile (hclass : Path.isClass path = true) : InPath w path name [] (.unit ⟨name, w.read path⟩)
  | unread {fault : PathFault} (harchive : Path.isArchive path = true) (hread : w.read path = .error fault) :
      InPath w path name [] (.fault name fault.error)
  | archive {bytes : Bytes} {p : Place} {f : Finding} (harchive : Path.isArchive path = true)
      (hread : w.read path = .ok bytes) (hin : InArchive w.opener (.file path) name bytes p f) : InPath w path name p f

/-- The positions lead down to something that is no directory, past directories none of which is hidden; the
names are those of the directories and of where they lead. -/
inductive Leads : List (RawText × FileNode) → Place → List RawText → Prop
  | here {entries : List (RawText × FileNode)} {i : Nat} {base : RawText} {node : FileNode}
      (h : entries[i]? = some (base, node)) (hnode : ¬ node.IsDirectory) : Leads entries [i] [base]
  | down {entries inner unlisted : List (RawText × FileNode)} {i : Nat} {base : RawText} {p : Place}
      {names : List RawText} (h : entries[i]? = some (base, .directory inner unlisted))
      (hshown : isHidden base = false) (hin : Leads inner p names) : Leads entries (i :: p) (base :: names)

/-- What there is to be found from a path on that leads to a node: in the directory there, under names
relative to it, unless the path itself is a link; in what goes by the path, if that is no directory. -/
inductive Holds (w : Ways) (disk : Disk δ) (files : δ) (path : RawText) : FileNode → Place → Finding → Prop
  | below {entries unlisted : List (RawText × FileNode)} {p q : Place} {names : List RawText} {f : Finding}
      (hlink : disk.isLink files path = false) (hlead : Leads (entries.map (seen disk files path)) p names)
      (h : InPath w (names.foldl Path.join path) (.intercalate "/" names) q f) :
      Holds w disk files path (.directory entries unlisted) (p ++ q) f
  | link {entries unlisted : List (RawText × FileNode)} {p : Place} {f : Finding}
      (hlink : disk.isLink files path = true) (h : InPath w path "." p f) :
      Holds w disk files path (.directory entries unlisted) p f
  | here {node : FileNode} {p : Place} {f : Finding} (hnode : ¬ node.IsDirectory) (h : InPath w path path p f) :
      Holds w disk files path node p f

/-- The archive under a path has none in it that is nested too deep. -/
def PathNests (w : Ways) (path : RawText) : Prop :=
  Path.isArchive path = true → ∀ bytes, w.read path = .ok bytes → archivesAt w.opener w.depth (.file path) bytes = []

/-- No archives are nested too deep from a path on. -/
def Nests (w : Ways) (disk : Disk δ) (files : δ) (path : RawText) : FileNode → Prop
  | .directory entries _ => (disk.isLink files path = true → PathNests w path) ∧
    (disk.isLink files path = false → ∀ p names, Leads (entries.map (seen disk files path)) p names →
      PathNests w (names.foldl Path.join path))
  | .file _ | .link _ => PathNests w path

/-! ### Trails that cover what there is -/

/-- A trail goes all the way and comes across what is there, each place once. -/
structure Trail.Covers (t : Trail) (there : Place → Finding → Prop) : Prop where
  whole : t.whole = true
  found : ∃ found : List (Place × Finding), (found.map Prod.fst).Nodup ∧ (∀ p f, (p, f) ∈ found ↔ there p f) ∧
    t.events.filterMap Event.finding? = found.map Prod.snd

section
variable {there there' : Place → Finding → Prop} {t : Trail}

theorem Trail.Covers.congr (h : t.Covers there) (hiff : ∀ p f, there p f ↔ there' p f) : t.Covers there' :=
  have heq : there = there' := funext fun p => funext fun f => propext (hiff p f)
  heq ▸ h

theorem covers_nothing {events : List Event} (hevents : events.filterMap Event.finding? = [])
    (h : ∀ p f, ¬ there p f) : (Trail.of events).Covers there :=
  ⟨rfl, [], .nil, fun p f => ⟨nofun, fun hin => absurd hin (h p f)⟩, hevents⟩

theorem covers_one {events : List Event} {g : Finding} (hevents : events.filterMap Event.finding? = [g])
    (h : ∀ p f, there p f ↔ p = [] ∧ f = g) : (Trail.of events).Covers there :=
  ⟨rfl, [([], g)], by simp, fun p f => by rw [h, List.mem_singleton, Prod.mk.injEq], hevents⟩

theorem covers_visit (h : t.Covers there) : ((Trail.of [.visit]).follow t).Covers there :=
  ⟨Trail.whole_follow.2 ⟨rfl, h.whole⟩, h.found⟩

/-- What the things in a list hold, each under its position from `k` on. -/
def Among {α : Type} (k : Nat) (xs : List α) (there : α → Place → Finding → Prop) (p : Place) (f : Finding) : Prop :=
  ∃ i x q, xs[i]? = some x ∧ p = (k + i) :: q ∧ there x q f

theorem among_cons {α : Type} {k : Nat} {x : α} {xs : List α} {there : α → Place → Finding → Prop} {p : Place}
    {f : Finding} : Among k (x :: xs) there p f ↔ (∃ q, p = k :: q ∧ there x q f) ∨ Among (k + 1) xs there p f := by
  constructor
  · rintro ⟨i, y, q, hi, rfl, hq⟩
    cases i with
    | zero =>
      obtain rfl : x = y := Option.some.inj hi
      exact .inl ⟨q, rfl, hq⟩
    | succ i => exact .inr ⟨i, y, q, hi, by rw [Nat.add_right_comm, Nat.add_assoc], hq⟩
  · rintro (⟨q, rfl, hq⟩ | ⟨i, y, q, hi, rfl, hq⟩)
    · exact ⟨0, x, q, rfl, rfl, hq⟩
    · exact ⟨i + 1, y, q, hi, by rw [Nat.add_right_comm, Nat.add_assoc], hq⟩

/-- One trail after another covers what is there at their positions. -/
theorem covers_concat {α : Type} {trail : α → Trail} {there : α → Place → Finding → Prop} {xs : List α}
    (h : ∀ x ∈ xs, (trail x).Covers (there x)) (k : Nat) : (Trail.concat (xs.map trail)).Covers (Among k xs there) := by
  induction xs generalizing k with
  | nil => exact covers_nothing rfl fun p f ⟨i, x, q, hi, _⟩ => by simp at hi
  | cons x xs ih =>
    obtain ⟨hx, hxs⟩ := List.forall_mem_cons.1 h
    obtain ⟨hwhole, found, hnodup, hmem, hevents⟩ := hx
    obtain ⟨hwhole', found', hnodup', hmem', hevents'⟩ := ih hxs (k + 1)
    refine ⟨Trail.whole_follow.2 ⟨hwhole, hwhole'⟩, found.map (Prod.map (k :: ·) id) ++ found', ?_, ?_, ?_⟩
    · have hmap : (found.map (Prod.map (k :: ·) id)).map Prod.fst = (found.map Prod.fst).map (k :: ·) := by simp
      rw [List.map_append, List.nodup_append', hmap]
      refine ⟨hnodup.map (List.cons_injective), hnodup', ?_⟩
      -- The places of the first thing start with `k`, those of the others with more.
      intro p hp hp'
      obtain ⟨q, -, rfl⟩ := List.mem_map.1 hp
      obtain ⟨⟨p, f⟩, hf, rfl⟩ := List.mem_map.1 hp'
      obtain ⟨i, _, _, _, heq, _⟩ := (hmem' _ f).1 hf
      have hhead := (List.cons_eq_cons.1 heq).1
      omega
    · intro p f
      rw [List.mem_append, hmem', among_cons]
      refine or_congr_left ?_
      simp only [List.mem_map, Prod.exists, Prod.map, Prod.mk.injEq, id]
      constructor
      · rintro ⟨q, g, hg, rfl, rfl⟩
        exact ⟨q, rfl, (hmem q g).1 hg⟩
      · rintro ⟨q, rfl, hq⟩
        exact ⟨q, f, (hmem q f).2 hq, rfl, rfl⟩
    · have hfollow : (Trail.concat ((x :: xs).map trail)).events =
          (trail x).events ++ (Trail.concat (xs.map trail)).events := by
        show ((trail x).follow _).events = _
        rw [Trail.follow, if_pos hwhole]
        rfl
      rw [hfollow, List.filterMap_append, hevents, hevents', List.map_append, List.map_map]
      rfl

end

/-! ### Archives -/

section
variable {opener : Opener} {source : Source} {name path : RawText} {bytes : Bytes} {depth : Nat}
  {p : Place} {f : Finding}

theorem not_isClass_of_isArchive (h : Path.isArchive path = true) : Path.isClass path = false := by
  unfold Path.isArchive at h
  unfold Path.isClass
  have hlength : (Path.suffix path).shown.toList.length = 4 := by
    rcases Bool.or_eq_true _ _ ▸ h with h | h <;> simpa using congrArg List.length (beq_iff_eq.1 h)
  refine beq_false_of_ne fun hclass => ?_
  have hlonger := congrArg List.length hclass
  rw [List.length_map, hlength] at hlonger
  cases hlonger

theorem inArchive_ok_iff {entries : List Entry} (hopen : opener source bytes = .ok entries) :
    InArchive opener source name bytes p f ↔ Among 0 entries (InEntry opener name) p f := by
  constructor
  · rintro (hclosed | ⟨hopen', he, hin⟩)
    · rw [hopen] at hclosed
      cases hclosed
    · obtain rfl := Except.ok.inj (hopen.symm.trans hopen')
      exact ⟨_, _, _, he, by rw [Nat.zero_add], hin⟩
  · rintro ⟨i, e, q, he, rfl, hin⟩
    rw [Nat.zero_add]
    exact .entry hopen he hin

theorem inArchive_error_iff {fault : Fault} (hopen : opener source bytes = .error fault) :
    InArchive opener source name bytes p f ↔ p = [] ∧ f = .fault name fault.error := by
  constructor
  · rintro (hclosed | ⟨hopen', _, _⟩)
    · obtain rfl := Except.error.inj (hopen.symm.trans hclosed)
      exact ⟨rfl, rfl⟩
    · rw [hopen] at hopen'
      cases hopen'
  · rintro ⟨rfl, rfl⟩
    exact .closed hopen

/-- An entry that a walk does not look into holds nothing. -/
theorem not_inEntry {e : Entry} (h : (e.isDirectory || !(Path.isClass e.name || Path.isArchive e.name)) = true) :
    ¬ InEntry opener name e p f := by
  intro hin
  cases hin <;> simp_all

theorem inEntry_error_iff {e : Entry} {error : Error} (hfile : e.isDirectory = false)
    (hname : Path.isClass e.name = true ∨ Path.isArchive e.name = true) (hread : readEntry e = .error error) :
    InEntry opener name e p f ↔ p = [] ∧ f = .fault (entryName name e.name) error := by
  constructor
  · rintro (⟨_, _, hread'⟩ | ⟨_, _, hread'⟩ | ⟨_, _, hread', _⟩) <;>
      obtain heq := hread.symm.trans hread' <;> cases heq
    exact ⟨rfl, rfl⟩
  · rintro ⟨rfl, rfl⟩
    exact .unread hfile hname hread

theorem inEntry_class_iff {e : Entry} {content : Bytes} (hfile : e.isDirectory = false)
    (hname : Path.isClass e.name = true) (hread : readEntry e = .ok content) :
    InEntry opener name e p f ↔ p = [] ∧ f = .unit ⟨entryName name e.name, .ok content⟩ := by
  constructor
  · rintro (⟨_, _, hread'⟩ | ⟨_, _, hread'⟩ | ⟨_, harchive, _⟩)
    · cases hread.symm.trans hread'
    · cases hread.symm.trans hread'
      exact ⟨rfl, rfl⟩
    · simp [not_isClass_of_isArchive harchive] at hname
  · rintro ⟨rfl, rfl⟩
    exact .classFile hfile hname hread

theorem inEntry_archive_iff {e : Entry} {content : Bytes} (hfile : e.isDirectory = false)
    (hname : Path.isArchive e.name = true) (hread : readEntry e = .ok content) :
    InEntry opener name e p f ↔ InArchive opener .memory (entryName name e.name) content p f := by
  constructor
  · rintro (⟨_, _, hread'⟩ | ⟨_, hclass, _⟩ | ⟨_, _, hread', hin⟩)
    · cases hread.symm.trans hread'
    · simp [not_isClass_of_isArchive hname] at hclass
    · cases hread.symm.trans hread'
      exact hin
  · exact .archive hfile hname hread

theorem covers_entry {nested : RawText → Bytes → Trail} {e : Entry}
    (hnested : ∀ inner ∈ nested? e,
      (nested (entryName name e.name) inner).Covers (InArchive opener .memory (entryName name e.name) inner)) :
    (entryTrail nested name e).Covers (InEntry opener name e) := by
  unfold entryTrail
  cases hlook : e.isDirectory || !(Path.isClass e.name || Path.isArchive e.name) with
  | true => exact covers_nothing rfl fun p f => not_inEntry hlook
  | false =>
    obtain ⟨hfile, hname⟩ : e.isDirectory = false ∧ (Path.isClass e.name = true ∨ Path.isArchive e.name = true) := by
      rwa [Bool.or_eq_false_iff, Bool.not_eq_false', Bool.or_eq_true] at hlook
    cases hread : readEntry e with
    | error error => exact covers_one rfl fun p f => inEntry_error_iff hfile hname hread
    | ok content =>
      cases harchive : Path.isArchive e.name with
      | true =>
        refine covers_visit ((hnested content ?_).congr fun p f => (inEntry_archive_iff hfile harchive hread).symm)
        simp [nested?, hfile, harchive, hread, Except.toOption]
      | false =>
        have hclass : Path.isClass e.name = true := hname.resolve_right (by simp [harchive])
        exact covers_one rfl fun p f => inEntry_class_iff hfile hclass hread

/-- A walk into an archive covers what it holds, unless archives are nested too deep. -/
theorem covers_archive (h : archivesAt opener depth source bytes = []) :
    (archiveTrail opener depth source name bytes).Covers (InArchive opener source name bytes) := by
  induction depth generalizing source name bytes with
  | zero => cases h
  | succ depth ih =>
    unfold archivesAt nestedIn at h
    unfold archiveTrail
    cases hopen : opener source bytes with
    | error fault => exact covers_one rfl fun p f => inArchive_error_iff hopen
    | ok entries =>
      rw [hopen, List.flatMap_eq_nil_iff] at h
      refine (covers_concat (fun e he => covers_entry fun inner hinner => ?_) 0).congr fun p f =>
        (inArchive_ok_iff hopen).symm
      exact ih (h inner (List.mem_filterMap.2 ⟨e, he, hinner⟩))

end

/-! ### Paths -/

section
variable {w : Ways} {name path : RawText} {p : Place} {f : Finding}

theorem inPath_class_iff (hclass : Path.isClass path = true) :
    InPath w path name p f ↔ p = [] ∧ f = .unit ⟨name, w.read path⟩ := by
  constructor
  · rintro (_ | ⟨harchive, _⟩ | ⟨harchive, _, _⟩)
    · exact ⟨rfl, rfl⟩
    · simp [not_isClass_of_isArchive harchive] at hclass
    · simp [not_isClass_of_isArchive harchive] at hclass
  · rintro ⟨rfl, rfl⟩
    exact .classFile hclass

theorem inPath_error_iff {fault : PathFault} (harchive : Path.isArchive path = true)
    (hread : w.read path = .error fault) : InPath w path name p f ↔ p = [] ∧ f = .fault name fault.error := by
  constructor
  · rintro (hclass | ⟨_, hread'⟩ | ⟨_, hread', _⟩)
    · simp [not_isClass_of_isArchive harchive] at hclass
    · obtain rfl := Except.error.inj (hread.symm.trans hread')
      exact ⟨rfl, rfl⟩
    · cases hread.symm.trans hread'
  · rintro ⟨rfl, rfl⟩
    exact .unread harchive hread

theorem inPath_archive_iff {bytes : Bytes} (harchive : Path.isArchive path = true) (hread : w.read path = .ok bytes) :
    InPath w path name p f ↔ InArchive w.opener (.file path) name bytes p f := by
  constructor
  · rintro (hclass | ⟨_, hread'⟩ | ⟨_, hread', hin⟩)
    · simp [not_isClass_of_isArchive harchive] at hclass
    · cases hread.symm.trans hread'
    · obtain rfl := Except.ok.inj (hread.symm.trans hread')
      exact hin
  · exact .archive harchive hread

theorem not_inPath (hclass : Path.isClass path = false) (harchive : Path.isArchive path = false) :
    ¬ InPath w path name p f := by
  rintro (hclass' | ⟨harchive', _⟩ | ⟨harchive', _, _⟩)
  · simp [hclass] at hclass'
  · simp [harchive] at harchive'
  · simp [harchive] at harchive'

theorem covers_pathArchive (h : PathNests w path) (harchive : Path.isArchive path = true) :
    (pathArchiveTrail w path name).Covers (InPath w path name) := by
  unfold pathArchiveTrail
  cases hread : w.read path with
  | error fault => exact covers_one rfl fun p f => inPath_error_iff harchive hread
  | ok bytes =>
    exact (covers_archive (h harchive bytes hread)).congr fun p f => (inPath_archive_iff harchive hread).symm

theorem covers_path (h : PathNests w path) : (fileTrail w path name).Covers (InPath w path name) := by
  unfold fileTrail
  cases hclass : Path.isClass path with
  | true => exact covers_one rfl fun p f => inPath_class_iff hclass
  | false =>
    cases harchive : Path.isArchive path with
    | true => exact covers_visit (covers_pathArchive h harchive)
    | false => exact covers_nothing rfl fun p f => not_inPath hclass harchive

/-! ### Directories -/

/-- What the entries of a directory hold, whose names start with `lead`. -/
def Below (w : Ways) (path lead : RawText) (entries : List (RawText × FileNode)) (p : Place) (f : Finding) : Prop :=
  ∃ q r names, p = q ++ r ∧ Leads entries q names ∧
    InPath w (names.foldl Path.join path) (lead ++ .intercalate "/" names) r f

/-- What a node below the root holds. -/
def InNode (w : Ways) (path name base : RawText) : FileNode → Place → Finding → Prop
  | .file _ | .link _ => InPath w path name
  | .directory entries _ => fun p f => isHidden base = false ∧ Below w path (name ++ "/") entries p f

/-- No archives are nested too deep in a node below the root. -/
def NodeNests (w : Ways) (path base : RawText) : FileNode → Prop
  | .file _ | .link _ => PathNests w path
  | .directory entries _ => isHidden base = false → ∀ p names, Leads entries p names →
    PathNests w (names.foldl Path.join path)

theorem intercalate_singleton (base : RawText) : RawText.intercalate "/" [base] = base := by
  simp [RawText.intercalate]

theorem lead_intercalate_cons (lead base : RawText) {names : List RawText} (h : names ≠ []) :
    lead ++ RawText.intercalate "/" (base :: names) = lead ++ base ++ "/" ++ RawText.intercalate "/" names := by
  obtain ⟨second, rest, rfl⟩ := List.exists_cons_of_ne_nil h
  show RawText.mk _ = RawText.mk _
  simp [RawText.intercalate, List.intercalate_cons_cons, List.append_assoc]

theorem Leads.ne_nil {entries : List (RawText × FileNode)} {names : List RawText} (h : Leads entries p names) :
    names ≠ [] := by
  cases h <;> exact List.cons_ne_nil _ _

/-- A way down from a directory starts at one of its entries. -/
theorem below_iff_among {lead : RawText} {entries : List (RawText × FileNode)} :
    Below w path lead entries p f ↔
      Among 0 entries (fun x => InNode w (Path.join path x.1) (lead ++ x.1) x.1 x.2) p f := by
  constructor
  · rintro ⟨q, r, names, rfl, hleads, hin⟩
    cases hleads with
    | @here _ i base node h hnode =>
      rw [intercalate_singleton] at hin
      refine ⟨i, (base, node), r, h, by simp, ?_⟩
      cases node with
      | file contents | link target => exact hin
      | directory inner unlisted => exact absurd trivial hnode
    | @down _ inner unlisted i base q names h hshown hinner =>
      rw [lead_intercalate_cons lead base hinner.ne_nil] at hin
      exact ⟨i, (base, .directory inner unlisted), q ++ r, h, by simp, hshown, q, r, names, rfl, hinner, hin⟩
  · rintro ⟨i, ⟨base, node⟩, q, h, rfl, hin⟩
    rw [Nat.zero_add]
    cases node with
    | file contents | link target =>
      refine ⟨[i], q, [base], rfl, .here h (by simp [FileNode.IsDirectory]), ?_⟩
      rw [intercalate_singleton]
      exact hin
    | directory inner unlisted =>
      obtain ⟨hshown, q, r, names, rfl, hinner, hin⟩ := hin
      exact ⟨i :: q, r, base :: names, rfl, .down h hshown hinner, by
        rw [lead_intercalate_cons lead base hinner.ne_nil]
        exact hin⟩

theorem nodeNests_of_leads {entries : List (RawText × FileNode)}
    (h : ∀ p names, Leads entries p names → PathNests w (names.foldl Path.join path)) :
    ∀ x ∈ entries, NodeNests w (Path.join path x.1) x.1 x.2 := by
  rintro ⟨base, node⟩ hx
  obtain ⟨i, hi⟩ := List.mem_iff_getElem?.1 hx
  cases node with
  | file contents => exact h [i] [base] (.here hi (by simp [FileNode.IsDirectory]))
  | link target => exact h [i] [base] (.here hi (by simp [FileNode.IsDirectory]))
  | directory inner unlisted =>
    exact fun hshown p names hinner => h (i :: p) (base :: names) (.down hi hshown hinner)

theorem entriesTrail_eq (path lead : RawText) (entries : List (RawText × FileNode)) :
    entriesTrail w path lead entries = Trail.concat (entries.map fun x =>
      nodeTrail w (Path.join path x.1) (lead ++ x.1) x.1 x.2) := by
  induction entries with
  | nil => rfl
  | cons x entries ih =>
    rw [entriesTrail, ih]
    rfl

mutual

theorem covers_node (path name base : RawText) : ∀ node : FileNode, NodeNests w path base node →
    (nodeTrail w path name base node).Covers (InNode w path name base node)
  | .file _, h => covers_path h
  | .link _, h => covers_path h
  | .directory entries _, h => by
    cases hidden : isHidden base with
    | true =>
      rw [nodeTrail, if_pos hidden]
      exact covers_nothing rfl fun p f hin => by simp [InNode, hidden] at hin
    | false =>
      rw [nodeTrail, if_neg (by simp [hidden]), entriesTrail_eq]
      have hentries := covers_entries path (name ++ "/") entries (nodeNests_of_leads (h hidden))
      refine (covers_visit (covers_concat hentries 0)).congr fun p f => ?_
      rw [← below_iff_among]
      exact (and_iff_right hidden).symm

theorem covers_entries (path lead : RawText) : ∀ entries : List (RawText × FileNode),
    (∀ x ∈ entries, NodeNests w (Path.join path x.1) x.1 x.2) → ∀ x ∈ entries,
      (nodeTrail w (Path.join path x.1) (lead ++ x.1) x.1 x.2).Covers
        (InNode w (Path.join path x.1) (lead ++ x.1) x.1 x.2)
  | [], _ => nofun
  | (base, node) :: rest, h => List.forall_mem_cons.2
    ⟨covers_node (Path.join path base) (lead ++ base) base node (List.forall_mem_cons.1 h).1,
      covers_entries path lead rest (List.forall_mem_cons.1 h).2⟩

end

/-! ### Roots -/

variable {δ : Type} {disk : Disk δ} {files : δ}

theorem holds_iff_of_not_isDirectory {node : FileNode} (hnode : ¬ node.IsDirectory) :
    Holds w disk files path node p f ↔ InPath w path path p f := by
  constructor
  · intro h
    cases h with
    | below | link => exact absurd trivial hnode
    | here _ h => exact h
  · exact .here hnode

theorem holds_directory_iff {entries unlisted : List (RawText × FileNode)} :
    Holds w disk files path (.directory entries unlisted) p f ↔
      if disk.isLink files path then InPath w path "." p f
      else Below w path .empty (entries.map (seen disk files path)) p f := by
  have hempty : ∀ t : RawText, .empty ++ t = t := fun _ => rfl
  constructor
  · intro h
    cases h with
    | below hlink hlead h =>
      rw [if_neg (by simp [hlink])]
      exact ⟨_, _, _, rfl, hlead, by rwa [hempty]⟩
    | link hlink h => rwa [if_pos hlink]
    | here hnode => exact absurd trivial hnode
  · intro h
    split at h
    · rename_i hlink
      exact .link hlink h
    · rename_i hlink
      obtain ⟨q, r, names, rfl, hlead, hin⟩ := h
      exact .below (by simpa using hlink) hlead (by rwa [hempty] at hin)

/-- The trail of a root that is no directory. -/
theorem covers_file {node : FileNode} (hnode : ¬ node.IsDirectory)
    (hroot : Root.of disk files path node = if Path.isArchive path then .archive
      else if Path.isClass path then .classFile else .unsupported (Path.suffix path)) (h : PathNests w path) :
    ((Root.of disk files path node).trail w path).Covers (Holds w disk files path node) := by
  rw [hroot]
  cases harchive : Path.isArchive path with
  | true =>
    refine (covers_pathArchive h harchive).congr fun p f => ?_
    rw [holds_iff_of_not_isDirectory hnode]
  | false =>
    cases hclass : Path.isClass path with
    | true =>
      refine covers_one rfl fun p f => ?_
      rw [holds_iff_of_not_isDirectory hnode, inPath_class_iff hclass]
    | false =>
      refine covers_nothing rfl fun p f => ?_
      rw [holds_iff_of_not_isDirectory hnode]
      exact not_inPath hclass harchive

/-- **A walk covers what there is below its root**, unless archives are nested too deep. -/
theorem covers_root {node : FileNode} (h : Nests w disk files path node) :
    ((Root.of disk files path node).trail w path).Covers (Holds w disk files path node) := by
  cases node with
  | directory entries unlisted =>
    obtain ⟨hlinked, hlisted⟩ := h
    unfold Root.of
    cases hlink : disk.isLink files path with
    | true =>
      refine (covers_path (hlinked hlink)).congr fun p f => ?_
      rw [holds_directory_iff, if_pos hlink]
    | false =>
      show ((Trail.of [.visit]).follow (entriesTrail w path .empty (entries.map (seen disk files path)))).Covers _
      rw [entriesTrail_eq]
      have hentries := covers_entries path .empty _ (nodeNests_of_leads (hlisted hlink))
      refine (covers_visit (covers_concat hentries 0)).congr fun p f => ?_
      rw [← below_iff_among, holds_directory_iff, if_neg (by simp [hlink])]
  | file contents => exact covers_file (by simp [FileNode.IsDirectory]) rfl h
  | link target => exact covers_file (by simp [FileNode.IsDirectory]) rfl h

end
end Scan
end ClassAtlas
