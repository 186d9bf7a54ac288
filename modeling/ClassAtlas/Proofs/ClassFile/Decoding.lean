import ClassAtlas.Proofs.ClassFile.Reading

/-! Reading a class accepts exactly the layout of class files.

`decode_iff_layout`: an input is read as a class, with some bytes left over, when and only when
the bytes before these spell the class. `decode_exact` adds what the pool's slots are filled
by: a counter of 16 bits that writes into an array fixed beforehand (`fillFrom`) fills them as
reading does. Its type says that no write is out of range, and that it ends says that the
counter never wraps. -/
namespace ClassAtlas.ClassFile
open Bytes

namespace FileReader

/-! ### Slots -/

/-- Slots that fill up what is there by a given number. -/
def Fills (n : Nat) (filled slots : Array (Option Constant)) (bs : Bytes) : Prop :=
  ∃ more, slots = filled ++ more.toArray ∧ more.length = n ∧ SlotsLayout more bs

/-- What follows a constant in the first of `n + 1` slots: a wide one needs a second slot, which
stays empty. -/
theorem afterConstant_accepts {n index : Nat} {filled : Array (Option Constant)} (c : Constant)
    (ih : ∀ m < n + 1, ∀ index filled, Accepts (poolSlots m index filled) (Fills m filled)) :
    Accepts (if c.kind.isWide = true then
        match n with
        | 0 => throw ⟨.header, .wideAtEnd c.kind⟩
        | rest + 1 => poolSlots rest (index + 2) ((filled.push (some c)).push none)
      else poolSlots n (index + 1) (filled.push (some c))) fun slots bs =>
        ∃ more, slots = filled ++ more.toArray ∧ more.length = n + 1 ∧
          ((c.isWide = false ∧ ∃ rest, more = some c :: rest ∧ SlotsLayout rest bs) ∨
            c.isWide = true ∧ ∃ rest, more = some c :: none :: rest ∧ SlotsLayout rest bs) := by
  rw [← c.isWide_eq]
  cases hwide : c.isWide with
  | false =>
    refine (ih n (Nat.lt_succ_self n) _ _).congr fun slots bs => ?_
    constructor
    · rintro ⟨rest, rfl, hlen, h⟩
      exact ⟨some c :: rest, by simp, congrArg (· + 1) hlen, .inl ⟨rfl, rest, rfl, h⟩⟩
    · rintro ⟨_, rfl, hlen, ⟨_, rest, rfl, h⟩ | ⟨hw, _⟩⟩
      · exact ⟨rest, by simp, Nat.succ.inj hlen, h⟩
      · cases hw
  | true =>
    cases n with
    | zero =>
      refine (Accepts.throw _).congr fun slots bs => ?_
      constructor
      · exact False.elim
      · rintro ⟨_, rfl, hlen, ⟨hw, _⟩ | ⟨_, rest, rfl, h⟩⟩
        · cases hw
        · cases hlen
    | succ n =>
      refine (ih n (by omega) _ _).congr fun slots bs => ?_
      constructor
      · rintro ⟨rest, rfl, hlen, h⟩
        exact ⟨some c :: none :: rest, by simp, congrArg (· + 2) hlen, .inr ⟨rfl, rest, rfl, h⟩⟩
      · rintro ⟨_, rfl, hlen, ⟨hw, _⟩ | ⟨_, rest, rfl, h⟩⟩
        · cases hw
        · exact ⟨rest, by simp, Nat.succ.inj (Nat.succ.inj hlen), h⟩

theorem poolSlots_accepts (n index : Nat) (filled : Array (Option Constant)) :
    Accepts (poolSlots n index filled) (Fills n filled) := by
  -- A wide constant takes two slots at once, so the induction goes over all smaller numbers.
  induction n using Nat.strongRecOn generalizing index filled with
  | ind n ih =>
  cases n with
  | zero =>
    refine (Accepts.pure filled).congr fun slots bs => ?_
    constructor
    · rintro ⟨rfl, rfl⟩
      exact ⟨[], by simp, rfl, .nil⟩
    · rintro ⟨more, rfl, hlen, h⟩
      obtain rfl := List.length_eq_zero_iff.1 hlen
      cases h
      exact ⟨by simp, rfl⟩
  | succ n =>
    unfold poolSlots
    refine ((Reader.constant_accepts.within _).bind fun c => afterConstant_accepts c ih).congr fun slots bs => ?_
    constructor
    · rintro ⟨c, x, y, rfl, hc, more, rfl, hlen, ⟨hw, rest, rfl, h⟩ | ⟨hw, rest, rfl, h⟩⟩
      · exact ⟨_, rfl, hlen, .narrow hc hw h⟩
      · exact ⟨_, rfl, hlen, .wide hc hw h⟩
    · rintro ⟨more, rfl, hlen, h⟩
      cases h with
      | nil => cases hlen
      | narrow hc hw h => exact ⟨_, _, _, rfl, hc, _, rfl, hlen, .inl ⟨hw, _, rfl, h⟩⟩
      | wide hc hw h => exact ⟨_, _, _, rfl, hc, _, rfl, hlen, .inr ⟨hw, _, rfl, h⟩⟩

/-! ### The whole file -/

theorem word_accepts (site : Site) :
    Accepts (within .header (Reader.word16 site)) fun w bs => bs = of16 w :=
  (Reader.word16_accepts site).within .header

/-- A word of the header and what follows it. -/
theorem word_bind_accepts {site : Site} {f : UInt16 → FileReader α} {H : UInt16 → α → Bytes → Prop}
    (hf : ∀ w, Accepts (f w) (H w)) :
    Accepts (within .header (Reader.word16 site) >>= f) fun a bs => ∃ w y, bs = of16 w ++ y ∧ H w a y := by
  refine ((word_accepts site).bind hf).congr fun a bs => ?_
  constructor
  · rintro ⟨w, _, y, rfl, rfl, h⟩
    exact ⟨w, y, rfl, h⟩
  · rintro ⟨w, y, rfl, h⟩
    exact ⟨w, _, y, rfl, rfl, h⟩

theorem members_accepts (site : Site) (place : Nat → Place) (pool : Pool) :
    Accepts (members site place pool) (Table (MemberLayout pool)) :=
  Reader.table_accepts (word_accepts site) fun i => (Reader.member_accepts pool).within (place i)

theorem pool_accepts : Accepts pool fun pool bs =>
    ∃ (count : UInt16) (slots : Bytes), bs = of16 count ++ slots ∧ count.toNat = pool.slots.size + 1 ∧
      SlotsLayout pool.slots.toList slots := by
  refine (word_bind_accepts fun count => Accepts.checked ((poolSlots_accepts (count.toNat - 1) 1 #[]).bind
    fun slots => Accepts.pure (Pool.mk slots))).congr fun pool bs => ?_
  constructor
  · rintro ⟨count, _, rfl, hpos, _, slots, _, rfl, ⟨more, rfl, hlen, h⟩, rfl, rfl⟩
    have hcount : count.toNat ≠ 0 := fun h0 => hpos (UInt16.toNat_inj.1 h0)
    refine ⟨count, slots, by simp, ?_, by simpa using h⟩
    simp [hlen]
    omega
  · rintro ⟨count, slots, rfl, hcount, h⟩
    have hslots : pool.slots = #[] ++ pool.slots.toList.toArray := by simp
    refine ⟨count, slots, rfl, ?_, _, slots, [], (List.append_nil _).symm, ⟨_, hslots, ?_, h⟩, rfl, rfl⟩
    · rintro rfl
      cases hcount
    · simp [hcount]

/-- The interfaces, the members and the attributes of a class, behind what is known of it. -/
theorem classContents_accepts (make : List Index → List Member → List Member → List Attribute → ClassModel)
    (pool : Pool) :
    Accepts (do
      let count ← within .header (Reader.word16 .classInfo)
      let interfaces ← within .header (Reader.times count.toNat fun _ => Reader.word16 .interfaces)
      let fields ← members .fieldCount .field pool
      let methods ← members .methodCount .method pool
      let attributes ← within .classAttributes (Reader.attributes pool)
      return make interfaces fields methods attributes) fun c bs =>
        ∃ is fs ms as interfaces fields methods attributes, bs = is ++ fs ++ ms ++ as ∧
          Table IndexLayout interfaces is ∧ Table (MemberLayout pool) fields fs ∧
          Table (MemberLayout pool) methods ms ∧ Table (AttributeLayout pool) attributes as ∧
          c = make interfaces fields methods attributes := by
  refine (word_bind_accepts fun count =>
    ((Accepts.mapM (fun _ => Reader.word16_accepts _) (List.range count.toNat)).within .header).bind
      fun interfaces =>
    (members_accepts _ _ pool).bind fun fields => (members_accepts _ _ pool).bind fun methods =>
    ((Reader.attributes_accepts pool).within .classAttributes).bind fun attributes =>
    Accepts.pure (make interfaces fields methods attributes)).congr fun c bs => ?_
  constructor
  · rintro ⟨count, _, rfl, interfaces, is, _, rfl, ⟨hcount, his⟩, fields, fs, _, rfl, hfields, methods, ms, _,
      rfl, hmethods, attributes, as, _, rfl, hattributes, rfl, rfl⟩
    rw [List.length_range] at hcount
    exact ⟨of16 count ++ is, fs, ms, as, interfaces, fields, methods, attributes, by simp,
      ⟨count, is, rfl, hcount, his⟩, hfields, hmethods, hattributes, rfl⟩
  · rintro ⟨_, fs, ms, as, interfaces, fields, methods, attributes, rfl, ⟨count, is, rfl, hcount, his⟩, hfields,
      hmethods, hattributes, rfl⟩
    exact ⟨count, is ++ (fs ++ (ms ++ (as ++ []))), by simp, interfaces, is, _, rfl,
      ⟨by rw [hcount, List.length_range], his⟩, fields, fs, _, rfl, hfields, methods, ms, _, rfl, hmethods,
      attributes, as, [], rfl, hattributes, rfl, rfl⟩

theorem file_accepts : Accepts file ClassLayout := by
  refine (((Reader.word32_accepts _).within .header).bind fun magic => Accepts.checked
    (word_bind_accepts fun minor => word_bind_accepts fun major => pool_accepts.bind fun pool =>
    word_bind_accepts fun access => word_bind_accepts fun this => word_bind_accepts fun super =>
    classContents_accepts (ClassModel.mk minor major pool access this super) pool)).congr fun c bs => ?_
  constructor
  · rintro ⟨magic, _, _, rfl, rfl, hmagic, minor, _, rfl, major, _, rfl, pool, _, _, rfl,
      ⟨count, slots, rfl, hcount, hslots⟩, access, _, rfl, this, _, rfl, super, _, rfl, is, fs, ms, as,
      interfaces, fields, methods, attributes, rfl, his, hfields, hmethods, hattributes, rfl⟩
    obtain rfl : magic = 0xCAFEBABE := Decidable.not_not.1 hmagic
    exact ⟨count, slots, is, fs, ms, as, by simp; rfl, hcount, hslots, his, hfields, hmethods, hattributes⟩
  · rintro ⟨count, slots, is, fs, ms, as, rfl, hcount, hslots, his, hfields, hmethods, hattributes⟩
    exact ⟨0xCAFEBABE, _, _, by simp only [List.append_assoc]; rfl, rfl, by simp, c.minor, _, rfl, c.major, _,
      rfl, c.pool, _, _, (List.append_assoc ..).symm, ⟨count, slots, rfl, hcount, hslots⟩, c.access, _, rfl,
      c.this, _, rfl, c.super, _, rfl, is, fs, ms, as, c.interfaces, c.fields, c.methods, c.attributes, by simp, his, hfields,
      hmethods, hattributes, rfl⟩

end FileReader

/-- **Reading succeeds exactly on what the layout spells**, and leaves what follows. -/
theorem decode_iff_layout (xs rest : Bytes) (e : Ending) (c : ClassModel) :
    decode ⟨xs, e⟩ = .ok (c, rest) ↔ ∃ front, xs = front ++ rest ∧ ClassLayout c front := by
  unfold decode
  rw [map_eq_ok]
  constructor
  · rintro ⟨⟨c', s⟩, hfile, hresult⟩
    obtain ⟨front, rest', hbytes, rfl, hlayout⟩ := (FileReader.file_accepts _ _ _).1 hfile
    obtain ⟨rfl, rfl⟩ := Prod.mk.inj hresult
    exact ⟨front, hbytes, hlayout⟩
  · rintro ⟨front, rfl, hlayout⟩
    exact ⟨(c, ⟨rest, e⟩), (FileReader.file_accepts _ _ _).2 ⟨front, rest, rfl, rfl, hlayout⟩, rfl⟩

/-! ### The slot counter -/

namespace FileReader

theorem toNat_succ_of_lt {i n : UInt16} (h : i < n) : (i + 1).toNat = i.toNat + 1 := by
  have hi : i.toNat < n.toNat := h
  have hn := n.toNat_lt
  rw [UInt16.toNat_add, show (1 : UInt16).toNat = 1 from rfl]
  omega

theorem succ_lt_of_ne {i n : UInt16} (h : i < n) (hne : i + 1 ≠ n) : i + 1 < n := by
  have hi : i.toNat < n.toNat := h
  have hne' : (i + 1).toNat ≠ n.toNat := fun he => hne (UInt16.toNat_inj.1 he)
  show (i + 1).toNat < n.toNat
  rw [toNat_succ_of_lt h] at hne' ⊢
  omega

theorem succ_pos_of_lt {i n : UInt16} (h : i < n) : 0 < i + 1 := by
  show 0 < (i + 1).toNat
  rw [toNat_succ_of_lt h]
  omega

/-- Fills the slots of a pool in place, from the index `next` on. Indices are 16-bit words here, and a
write is one into the array. -/
def fillFrom (count next : UInt16) (hnext : 0 < next) (slots : Vector (Option Constant) (count.toNat - 1)) :
    FileReader (Vector (Option Constant) (count.toNat - 1)) :=
  if h : next < count then do
    let c ← within (.poolEntry next.toNat) Reader.constant
    have hpos : 0 < next.toNat := hnext
    have hlt : next.toNat < count.toNat := h
    let slots := slots.set (next.toNat - 1) (some c) (by omega)
    if c.kind.isWide then
      if hend : next + 1 = count then throw ⟨.header, .wideAtEnd c.kind⟩
      else
        fillFrom count (next + 1 + 1) (succ_pos_of_lt (succ_lt_of_ne h hend)) slots
    else fillFrom count (next + 1) (succ_pos_of_lt h) slots
  else return slots
termination_by count.toNat - next.toNat
decreasing_by
  · have h1 := toNat_succ_of_lt h
    have h2 := toNat_succ_of_lt (succ_lt_of_ne h hend)
    omega
  · have h1 := toNat_succ_of_lt h
    omega

theorem set_append_replicate (filled : Array (Option Constant)) (n : Nat) (x : Option Constant)
    (h : filled.size < (filled ++ Array.replicate (n + 1) none).size) :
    (filled ++ Array.replicate (n + 1) none).set filled.size x h = filled.push x ++ Array.replicate n none := by
  apply Array.toList_inj.1
  simp [List.replicate_succ]

theorem fillFrom_eq (n : Nat) (count next : UInt16) (hnext : 0 < next)
    (slots : Vector (Option Constant) (count.toNat - 1)) (filled : Array (Option Constant))
    (hn : next.toNat + n = count.toNat) (hfilled : filled.size + 1 = next.toNat)
    (hslots : slots.toArray = filled ++ Array.replicate n none) :
    Vector.toArray <$> fillFrom count next hnext slots = poolSlots n next.toNat filled := by
  induction n using Nat.strongRecOn generalizing next slots filled with
  | ind n ih =>
  unfold fillFrom
  cases n with
  | zero =>
    have hnot : ¬ next < count := by
      show ¬ next.toNat < count.toNat
      omega
    rw [dif_neg hnot, map_pure, hslots]
    simp [poolSlots]
  | succ n =>
    have hlt : next < count := by
      show next.toNat < count.toNat
      omega
    have h1 := toNat_succ_of_lt hlt
    have hset : ∀ (c : Constant) hb, (slots.set (next.toNat - 1) (some c) hb).toArray =
        filled.push (some c) ++ Array.replicate n none := by
      intro c hb
      rw [← set_append_replicate filled n (some c) (by simp)]
      simp only [Vector.toArray_set, hslots]
      congr 1
      omega
    rw [dif_pos hlt, map_bind]
    unfold poolSlots
    congr 1
    funext c
    dsimp only
    by_cases hwide : c.kind.isWide = true
    · rw [if_pos hwide, if_pos hwide]
      by_cases hend : next + 1 = count
      · have hz : n = 0 := by
          rw [← hend] at hn
          omega
        subst hz
        rw [dif_pos hend]
        rfl
      · have h2 := toNat_succ_of_lt (succ_lt_of_ne hlt hend)
        have hcount : (next + 1).toNat < count.toNat := succ_lt_of_ne hlt hend
        obtain ⟨m, rfl⟩ : ∃ m, n = m + 1 := ⟨n - 1, by omega⟩
        have hsize : ((filled.push (some c)).push none).size + 1 = (next + 1 + 1).toNat := by
          rw [Array.size_push, Array.size_push]
          omega
        rw [dif_neg hend, ih m (by omega) (next + 1 + 1) _ _ _ (by omega) hsize
          (by rw [hset]; apply Array.toList_inj.1; simp [List.replicate_succ]), h2, h1]
    · have hsize : (filled.push (some c)).size + 1 = (next + 1).toNat := by
        rw [Array.size_push]
        omega
      rw [if_neg hwide, if_neg hwide, ih n (by omega) (next + 1) _ _ _ (by omega) hsize (hset c _), h1]

/-- A 16-bit counter fills the slots of every pool as reading does. -/
theorem fill_eq (count : UInt16) :
    Vector.toArray <$> fillFrom count 1 (by decide) (Vector.replicate _ none) =
      poolSlots (count.toNat - 1) 1 #[] := by
  by_cases h : count = 0
  · subst h
    unfold fillFrom
    rw [dif_neg (by decide), map_pure]
    rfl
  · have hne : count.toNat ≠ 0 := fun h0 => h (UInt16.toNat_inj.1 h0)
    refine fillFrom_eq (count.toNat - 1) count 1 _ _ #[] ?_ rfl (by simp)
    show 1 + (count.toNat - 1) = count.toNat
    omega

end FileReader

/-- **The reader accepts exactly the layout of class files**, and a 16-bit counter suffices to
fill the slots of a pool, whatever its count. -/
theorem decode_exact :
    (∀ (xs rest : Bytes) (c : ClassModel),
      decode ⟨xs, .finished⟩ = .ok (c, rest) ↔ ∃ front, xs = front ++ rest ∧ ClassLayout c front) ∧
    ∀ count : UInt16,
      Vector.toArray <$> FileReader.fillFrom count 1 (by decide) (Vector.replicate _ none) =
        FileReader.poolSlots (count.toNat - 1) 1 #[] :=
  ⟨fun xs rest c => decode_iff_layout xs rest .finished c, FileReader.fill_eq⟩

end ClassAtlas.ClassFile
