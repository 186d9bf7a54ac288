import ClassAtlas.Proofs.ClassFile.Outline
import ClassAtlas.Proofs.ClassFile.Reading
import ClassAtlas.Proofs.Text.ModifiedUtf8

/-! What drafting does to a pool and to the class.

The slots of a draft are what its entries are read back as (`Draft.slots`). A draft is *sound*
(`Draft.Sound`) when every entry can be read back, its counter stands right behind its slots and
its table of texts is exactly the texts of its slots; so a text never takes a second slot. A
draft *carries* an outline in a pool (`Draft.Carries`) when its indices and raw attributes mean
the outline there.

A step of drafting only adds slots, keeps a draft sound as long as the slots can be counted, and
answers with something that holds in every pool that starts with the slots so far
(`Drafting.Effect`). Steps are put together by `Effect.bind`, so what a composite step does
follows from what `add` and `utf8` do. -/
namespace ClassAtlas.ClassFile
open Bytes

/-! ### Pools that grow -/

namespace Pool

/-- The pool starts with the slots of another. -/
def Extends (q p : Pool) : Prop := p.slots.toList <+: q.slots.toList

theorem Extends.refl (p : Pool) : p.Extends p := List.prefix_rfl

theorem Extends.trans {r q p : Pool} (h : r.Extends q) (h' : q.Extends p) : r.Extends p :=
  List.IsPrefix.trans h' h

theorem Extends.slot {q p : Pool} (h : q.Extends p) {n : Nat} {x : Option Constant}
    (hn : p.slots[n]? = some x) : q.slots[n]? = some x := by
  obtain ⟨more, hmore⟩ := h
  have hn : p.slots.toList[n]? = some x := by rwa [Array.getElem?_toList]
  have hlt : n < p.slots.toList.length := (List.getElem?_eq_some_iff.1 hn).1
  rw [← Array.getElem?_toList, ← hmore, List.getElem?_append_left hlt, hn]

theorem get?_eq_some_iff {p : Pool} {i : Index} {c : Constant} :
    p.get? i = some c ↔ i ≠ 0 ∧ p.slots[i.toNat - 1]? = some (some c) := by
  unfold get?
  by_cases hi : i = 0
  · simp [hi]
  · rw [if_neg hi]
    cases h : p.slots[i.toNat - 1]? <;> simp [hi]

theorem utf8?_eq_some_iff {p : Pool} {i : Index} {s : String} :
    p.utf8? i = some s ↔ p.get? i = some (.utf8 s) := by
  unfold utf8?
  split
  · rename_i value h
    rw [h, Option.some.injEq, Option.some.injEq, Constant.utf8.injEq]
  · rename_i h
    constructor
    · intro hs
      cases hs
    · intro hs
      exact absurd hs (h s)

theorem className?_eq_some {p : Pool} {i j : Index} {s : String} (hi : p.get? i = some (.classRef j))
    (hj : p.utf8? j = some s) : p.className? i = some s := by
  unfold className?
  rw [hi]
  exact hj

theorem Extends.get? {q p : Pool} (h : q.Extends p) {i : Index} {c : Constant} (hi : p.get? i = some c) :
    q.get? i = some c := by
  rw [get?_eq_some_iff] at hi ⊢
  exact ⟨hi.1, h.slot hi.2⟩

theorem Extends.utf8? {q p : Pool} (h : q.Extends p) {i : Index} {s : String} (hi : p.utf8? i = some s) :
    q.utf8? i = some s := by
  rw [utf8?_eq_some_iff] at hi ⊢
  exact h.get? hi

end Pool

/-! ### Slots of a draft -/

namespace Draft

namespace Entry

/-- The constant that an entry is read back as. -/
def meaning : Entry → Constant
  | constant c => c
  | pair tag first second =>
    if tag = ConstantKind.fieldref.tag then .fieldref first second
    else if tag = ConstantKind.methodref.tag then .methodref first second
    else .interfaceMethodref first second

/-- The slots that an entry fills. -/
def filled (e : Entry) : List (Option Constant) :=
  if e.isWide then [some e.meaning, none] else [some e.meaning]

/-- The entry can be read back. -/
def Readable : Entry → Prop
  | constant (.utf8 s) => Writable s
  | constant _ => True
  | pair tag _ _ => tag = ConstantKind.fieldref.tag ∨ tag = ConstantKind.methodref.tag ∨
      tag = ConstantKind.interfaceMethodref.tag

theorem length_filled (e : Entry) : e.filled.length = e.slots.toNat := by
  unfold filled slots
  cases e.isWide <;> rfl

theorem isWide_meaning (e : Entry) : e.meaning.isWide = e.isWide := by
  rw [Constant.isWide_eq]
  cases e with
  | constant c => rfl
  | pair tag first second =>
    simp only [meaning]
    split
    · rfl
    · split <;> rfl

/-- A text is written so that it is read back. -/
theorem text_layout {s : String} (h : Writable s) : ConstantLayout (.utf8 s) (Constant.utf8 s).encode := by
  obtain ⟨hchars, hlen⟩ := h
  have hcount : (Text.Utf8.encode s).length = (UInt16.ofNat (Text.Utf8.encode s).length).toNat := by
    rw [UInt16.toNat_ofNat']
    exact (Nat.mod_eq_of_lt (by omega)).symm
  have hlayout := ConstantLayout.utf8 _ _ hcount
  rwa [Text.ModifiedUtf8.decode_encode hchars] at hlayout

theorem layout {e : Entry} (h : e.Readable) : ConstantLayout e.meaning e.encode := by
  cases e with
  | constant c =>
    cases c with
    | utf8 s => exact text_layout h
    | integer value => exact .integer value
    | float bits => exact .float bits
    | long value => exact .long value
    | double bits => exact .double bits
    | classRef name => exact .classRef name
    | string value => exact .string value
    | fieldref owner member => exact .fieldref owner member
    | methodref owner member => exact .methodref owner member
    | interfaceMethodref owner member => exact .interfaceMethodref owner member
    | nameAndType name descriptor => exact .nameAndType name descriptor
    | methodHandle action target => exact .methodHandle action target
    | methodType descriptor => exact .methodType descriptor
    | dynamic bootstrap member => exact .dynamic bootstrap member
    | invokeDynamic bootstrap member => exact .invokeDynamic bootstrap member
    | module name => exact .module name
    | package name => exact .package name
  | pair tag first second =>
    rcases h with rfl | rfl | rfl
    · exact .fieldref first second
    · exact .methodref first second
    · exact .interfaceMethodref first second

end Entry

/-- What the entries are read back as. -/
def slots (d : Draft) : List (Option Constant) := d.entries.toList.flatMap Entry.filled

def pool (d : Draft) : Pool := ⟨d.slots.toArray⟩

theorem poolCount_eq (d : Draft) : d.poolCount = d.slots.length + 1 := by
  unfold poolCount slots
  rw [List.length_flatMap]
  simp only [Entry.length_filled]

theorem slots_layout {es : List Entry} (h : ∀ e ∈ es, e.Readable) :
    SlotsLayout (es.flatMap Entry.filled) (es.flatMap Entry.encode) := by
  induction es with
  | nil => exact .nil
  | cons e es ih =>
    have hlayout := Entry.layout (h e List.mem_cons_self)
    have ih := ih fun e he => h e (List.mem_cons_of_mem _ he)
    have hwide := e.isWide_meaning
    rw [List.flatMap_cons, List.flatMap_cons, Entry.filled]
    cases hw : e.isWide with
    | false => exact .narrow hlayout (hwide.trans hw) ih
    | true => exact .wide hlayout (hwide.trans hw) ih

/-- The draft can be written down and read back. -/
structure Sound (d : Draft) : Prop where
  readable : ∀ e ∈ d.entries.toList, e.Readable
  next : d.next.toNat = d.poolCount
  texts : ∀ s i, d.texts.lookup s = some i ↔ d.pool.utf8? i = some s

theorem blank_sound : blank.Sound where
  readable := fun e he => by cases he
  next := rfl
  texts := fun s i => by
    rw [Pool.utf8?_eq_some_iff, Pool.get?_eq_some_iff]
    simp [blank, pool, slots]

/-! ### What a draft carries -/

/-- The raw attribute means the content: it has its name, and its bytes spell a body that says it. -/
def RawAttribute.Carries (p : Pool) (a : RawAttribute) (c : Outline.Content) : Prop :=
  p.utf8? a.name = some c.label ∧ a.info.length < 4294967296 ∧
    ∃ body, BodyLayout p c.label body a.info ∧ p.Says body c

structure RawMember.Carries (p : Pool) (m : RawMember) (w : Outline.Member) : Prop where
  sort : m.sort = w.sort
  access : m.access = w.access
  name : p.IsText m.name w.name
  descriptor : p.IsText m.descriptor w.descriptor
  attributes : List.Forall₂ (RawAttribute.Carries p) m.attributes w.attributes

/-- Read with the pool, the draft is the class of the outline. -/
structure Carries (d : Draft) (p : Pool) (o : Outline) : Prop where
  access : d.access = o.access
  this : p.className? d.this = some o.this
  super : p.IsSuper d.super o.super
  interfaces : p.AreClasses d.interfaces o.interfaces
  members : List.Forall₂ (RawMember.Carries p) d.members o.members
  attributes : List.Forall₂ (RawAttribute.Carries p) d.attributes o.attributes

end Draft

namespace Drafting
open Draft

/-! ### Steps and their effects -/

/-- The step only adds slots. On a sound draft, and if the slots can be counted, it leaves a sound draft;
then in every pool that extends the slots and has `P`, the answer has `Q` and the draft carries what
`f` makes of the outline. -/
def Effect (P : Pool → Prop) (m : Drafting α) (f : Outline → Outline) (Q : α → Pool → Prop) : Prop :=
  ∀ d : Draft, (m d).2.pool.Extends d.pool ∧
    (d.Sound → (m d).2.poolCount ≤ 0xFFFF → (m d).2.Sound ∧
      ∀ p : Pool, p.Extends (m d).2.pool → P p → Q (m d).1 p ∧ ∀ o, d.Carries p o → (m d).2.Carries p (f o))

theorem poolCount_le {d d' : Draft} (h : d'.pool.Extends d.pool) : d.poolCount ≤ d'.poolCount := by
  rw [poolCount_eq, poolCount_eq]
  have hle := List.IsPrefix.length_le h
  simpa [pool] using hle

namespace Effect

variable {P : Pool → Prop} {α β : Type}

theorem pure (a : α) : Effect P (Pure.pure a) id fun b _ => b = a :=
  fun d => ⟨.refl d.pool, fun hd _ => ⟨hd, fun _ _ _ => ⟨rfl, fun _ h => h⟩⟩⟩

/-- A step may be said to do less. -/
theorem post {m : Drafting α} {f : Outline → Outline} {Q R : α → Pool → Prop} (h : Effect P m f Q)
    (hQ : ∀ a p, P p → Q a p → R a p) : Effect P m f R := by
  intro d
  obtain ⟨hext, h⟩ := h d
  refine ⟨hext, fun hd hroom => ?_⟩
  obtain ⟨hd', h⟩ := h hd hroom
  refine ⟨hd', fun p hp hP => ?_⟩
  obtain ⟨hq, hcarries⟩ := h p hp hP
  exact ⟨hQ _ p hP hq, hcarries⟩

/-- One step and then another, which may rely on what the first one answers. -/
theorem bind {m : Drafting α} {k : α → Drafting β} {f g : Outline → Outline} {Q : α → Pool → Prop}
    {R : α → β → Pool → Prop} (hm : Effect P m f Q) (hk : ∀ a, Effect (fun p => P p ∧ Q a p) (k a) g (R a)) :
    Effect P (m >>= k) (g ∘ f) fun b p => ∃ a, Q a p ∧ R a b p := by
  intro d
  obtain ⟨hext, hm⟩ := hm d
  obtain ⟨hext', hk⟩ := hk (m d).1 (m d).2
  refine ⟨hext'.trans hext, fun hd hroom => ?_⟩
  obtain ⟨hd', hm⟩ := hm hd (Nat.le_trans (poolCount_le hext') hroom)
  obtain ⟨hd'', hk⟩ := hk hd' hroom
  refine ⟨hd'', fun p hp hP => ?_⟩
  obtain ⟨hq, hcarries⟩ := hm p (hp.trans hext') hP
  obtain ⟨hr, hcarries'⟩ := hk p hp ⟨hP, hq⟩
  exact ⟨⟨_, hq, hr⟩, fun o ho => hcarries' _ (hcarries o ho)⟩

theorem map {m : Drafting α} {f : Outline → Outline} {Q : α → Pool → Prop} (h : Effect P m f Q) (g : α → β) :
    Effect P (g <$> m) f fun b p => ∃ a, Q a p ∧ b = g a :=
  h.bind fun a => pure (g a)

theorem mapM {k : α → Drafting β} {Q : Pool → β → α → Prop} {xs : List α}
    (hk : ∀ x ∈ xs, ∀ P, Effect P (k x) id fun y p => Q p y x) :
    Effect P (xs.mapM k) id fun ys p => List.Forall₂ (Q p) ys xs := by
  induction xs generalizing P with
  | nil =>
    rw [List.mapM_nil]
    exact (pure []).post fun ys p _ hys => hys ▸ .nil
  | cons x xs ih =>
    rw [List.mapM_cons]
    have hrest := fun P => ih (P := P) fun y hy => hk y (List.mem_cons_of_mem x hy)
    refine ((hk x List.mem_cons_self P).bind fun y => (hrest _).bind fun ys => pure (y :: ys)).post ?_
    rintro _ p _ ⟨y, hy, ys, hys, rfl⟩
    exact .cons hy hys

end Effect

/-! ### Adding to the pool -/

theorem slots_add (e : Entry) (d : Draft) : (add e d).2.slots = d.slots ++ e.filled := by
  simp [add, slots]

theorem poolCount_add (e : Entry) (d : Draft) : (add e d).2.poolCount = d.poolCount + e.slots.toNat := by
  rw [poolCount_eq, poolCount_eq, slots_add, List.length_append, e.length_filled]
  omega

theorem add_extends (e : Entry) (d : Draft) : (add e d).2.pool.Extends d.pool := by
  unfold Pool.Extends pool
  rw [slots_add]
  exact List.prefix_append d.slots e.filled

theorem filled_eq_some {e : Entry} {n : Nat} {c : Constant} :
    e.filled[n]? = some (some c) ↔ n = 0 ∧ c = e.meaning := by
  unfold Entry.filled
  cases e.isWide with
  | false =>
    cases n with
    | zero => simp [eq_comm]
    | succ n => simp
  | true =>
    match n with
    | 0 => simp [eq_comm]
    | 1 => simp
    | n + 2 => simp

section Add
variable {d : Draft} {e : Entry} (hd : d.Sound)
include hd

theorem next_add (hroom : (add e d).2.poolCount ≤ 0xFFFF) : (add e d).2.next.toNat = (add e d).2.poolCount := by
  have hslots := e.slots.toNat_lt
  rw [poolCount_add] at hroom ⊢
  show (d.next + e.slots).toNat = _
  rw [UInt16.toNat_add, hd.next]
  exact Nat.mod_eq_of_lt (by omega)

/-- The new constant stands at the counter, and no other index changes. -/
theorem get?_add (i : Index) (c : Constant) :
    (add e d).2.pool.get? i = some c ↔ d.pool.get? i = some c ∨ i = d.next ∧ c = e.meaning := by
  have hnext : d.next.toNat = d.slots.length + 1 := by rw [hd.next, poolCount_eq]
  have hi : i = d.next ↔ i.toNat = d.slots.length + 1 := by rw [← UInt16.toNat_inj, hnext]
  have hzero : i ≠ 0 ↔ i.toNat ≠ 0 := by rw [Ne, ← UInt16.toNat_inj]; rfl
  simp only [Pool.get?_eq_some_iff, pool, slots_add, List.getElem?_toArray, hi, hzero]
  by_cases hlt : i.toNat - 1 < d.slots.length
  · rw [List.getElem?_append_left hlt]
    constructor
    · exact .inl
    · rintro (h | ⟨h, _⟩)
      · exact h
      · omega
  · have hle : d.slots.length ≤ i.toNat - 1 := Nat.le_of_not_lt hlt
    rw [List.getElem?_append_right hle, List.getElem?_eq_none hle, filled_eq_some]
    constructor
    · rintro ⟨h0, h, hc⟩
      exact .inr ⟨by omega, hc⟩
    · rintro (⟨_, h⟩ | ⟨h, hc⟩)
      · cases h
      · exact ⟨by omega, by omega, hc⟩

theorem utf8?_add (i : Index) (s : String) :
    (add e d).2.pool.utf8? i = some s ↔ d.pool.utf8? i = some s ∨ i = d.next ∧ e.meaning = .utf8 s := by
  rw [Pool.utf8?_eq_some_iff, Pool.utf8?_eq_some_iff, get?_add hd, eq_comm (a := Constant.utf8 s)]

/-- A constant of two slots is followed by an empty one. -/
theorem gap_add (hwide : e.isWide = true) : (add e d).2.pool.slots[d.next.toNat]? = some none := by
  have hnext : d.next.toNat = d.slots.length + 1 := by rw [hd.next, poolCount_eq]
  simp [pool, slots_add, hnext, Entry.filled, hwide]

end Add

variable {P : Pool → Prop}

/-- A constant that is no text gets an index of its own. -/
theorem add_effect {e : Entry} (hread : e.Readable) (htext : ∀ s, e.meaning ≠ .utf8 s) :
    Effect P (add e) id fun i p => p.get? i = some e.meaning ∧ (e.isWide = true → p.slots[i.toNat]? = some none) := by
  intro d
  refine ⟨add_extends e d, fun hd hroom => ⟨⟨?_, next_add hd hroom, fun s i => ?_⟩, fun p hp _ => ⟨⟨?_, ?_⟩, ?_⟩⟩⟩
  · intro e' he'
    have he' : e' ∈ (d.entries.push e).toList := he'
    rw [Array.toList_push, List.mem_append, List.mem_singleton] at he'
    rcases he' with he' | rfl
    · exact hd.readable e' he'
    · exact hread
  · rw [utf8?_add hd]
    show d.texts.lookup s = some i ↔ _
    simp [hd.texts, htext]
  · exact hp.get? ((get?_add hd _ _).2 (.inr ⟨rfl, rfl⟩))
  · exact fun hwide => hp.slot (gap_add hd hwide)
  · exact fun o ho => ⟨ho.access, ho.this, ho.super, ho.interfaces, ho.members, ho.attributes⟩

theorem constant_effect {c : Constant} (htext : c.kind ≠ .utf8) :
    Effect P (constant c) id fun i p => p.get? i = some c ∧ (c.kind.isWide = true → p.slots[i.toNat]? = some none) := by
  have hne : ∀ s, c ≠ .utf8 s := by
    rintro s rfl
    exact htext rfl
  refine add_effect ?_ hne
  cases c with
  | utf8 s => exact absurd rfl htext
  | _ => trivial

/-- A text is found in its slot, or takes one. -/
theorem utf8_effect {s : String} (hs : Writable s) : Effect P (utf8 s) id fun i p => p.utf8? i = some s := by
  intro d
  cases hlookup : d.texts.lookup s with
  | some i =>
    have hrun : utf8 s d = (i, d) := by
      unfold utf8
      rw [hlookup]
    rw [hrun]
    refine ⟨.refl _, fun hd _ => ⟨hd, fun p hp _ => ⟨?_, fun o ho => ho⟩⟩⟩
    exact hp.utf8? ((hd.texts s i).1 hlookup)
  | none =>
    have hrun : utf8 s d = (d.next, { (add (.constant (.utf8 s)) d).2 with texts := (s, d.next) :: d.texts }) := by
      unfold utf8
      rw [hlookup]
      rfl
    rw [hrun]
    refine ⟨add_extends _ d, fun hd hroom => ⟨⟨?_, next_add hd hroom, fun t i => ?_⟩, fun p hp _ => ⟨?_, ?_⟩⟩⟩
    · intro e he
      have he : e ∈ (d.entries.push (.constant (.utf8 s))).toList := he
      rw [Array.toList_push, List.mem_append, List.mem_singleton] at he
      rcases he with he | rfl
      · exact hd.readable e he
      · exact hs
    · refine Iff.trans ?_ (utf8?_add hd i t).symm
      rw [← hd.texts, List.lookup_cons]
      by_cases ht : t = s
      · subst ht
        simp [hlookup, Entry.meaning, eq_comm]
      · have hbeq : (t == s) = false := beq_false_of_ne ht
        simp [hbeq, Entry.meaning, Ne.symm ht]
    · exact hp.utf8? ((utf8?_add hd _ _).2 (.inr ⟨rfl, rfl⟩))
    · exact fun o ho => ⟨ho.access, ho.this, ho.super, ho.interfaces, ho.members, ho.attributes⟩

/-! ### Composite constants -/

theorem string_effect {s : String} (hs : Writable s) :
    Effect P (string s) id fun i p => ∃ j, p.get? i = some (.string j) ∧ p.utf8? j = some s :=
  ((utf8_effect hs).bind fun _ => constant_effect (by nofun)).post fun _ _ _ ⟨j, hj, hi, _⟩ => ⟨j, hi, hj⟩

theorem classRef_effect {s : String} (hs : Writable s) :
    Effect P (classRef s) id fun i p => p.className? i = some s :=
  ((utf8_effect hs).bind fun _ => constant_effect (by nofun)).post fun _ _ _ ⟨_, hj, hi, _⟩ =>
    Pool.className?_eq_some hi hj

theorem nameAndType_effect {name descriptor : String} (hn : Writable name) (hd : Writable descriptor) :
    Effect P (nameAndType name descriptor) id fun i p => p.IsNameAndType i name descriptor :=
  ((utf8_effect hn).bind fun _ => (utf8_effect hd).bind fun _ => constant_effect (by nofun)).post
    fun _ _ _ ⟨j, hj, k, hk, hi, _⟩ => ⟨j, k, hi, hj, hk⟩

theorem reference_effect {build : Index → Index → Constant} (hbuild : ∀ j k, (build j k).kind ≠ .utf8)
    {owner name descriptor : String} (ho : Writable owner) (hn : Writable name) (hd : Writable descriptor) :
    Effect P (reference build owner name descriptor) id fun i p => p.IsReference build i owner name descriptor :=
  ((classRef_effect ho).bind fun _ => (nameAndType_effect hn hd).bind fun _ => constant_effect (hbuild _ _)).post
    fun _ _ _ ⟨j, hj, k, hk, hi, _⟩ => ⟨j, k, hi, hj, hk⟩

end Drafting
end ClassAtlas.ClassFile
