import ClassAtlas.Proofs.ClassFile.Decoding

/-! Class files with an attribute whose contents are at fault.

The layout of class files says what is read; `FaultyClass` says what is refused for its contents. It
spells a class up to and including the first attribute of which the contents cannot be decoded, wherever
that attribute stands: in a field, in a method or in the class. A reader *refuses* such bytes (`Refuses`)
when it fails on every input that starts with them, with the failure that goes with them. Refusal goes
through sequencing and counted repetition beside acceptance, which tells of the bytes before the fault. -/
namespace ClassAtlas.ClassFile
open Bytes

variable {σ ε α β : Type} [Source σ]

/-- The reader fails on the inputs that start with such bytes, with the failure that goes with them. -/
def Refuses (r : StateT σ (Except ε) α) (B : ε → Bytes → Prop) : Prop :=
  ∀ s e front rest, Source.bytes s = front ++ rest → B e front → r s = .error e

namespace Refuses

theorem mono {r : StateT σ (Except ε) α} {B C : ε → Bytes → Prop} (h : Refuses r B) (hle : ∀ e bs, C e bs → B e bs) :
    Refuses r C :=
  fun s e front rest hs hC => h s e front rest hs (hle e front hC)

/-- A failure of the first reader is one of both. -/
theorem first {r : StateT σ (Except ε) α} {f : α → StateT σ (Except ε) β} {B : ε → Bytes → Prop} (h : Refuses r B) :
    Refuses (r >>= f) B := by
  intro s e front rest hs hB
  show (r s >>= fun p => f p.1 p.2) = _
  rw [h s e front rest hs hB]
  rfl

/-- A failure behind what the first reader accepts. -/
theorem second {r : StateT σ (Except ε) α} {f : α → StateT σ (Except ε) β} {G : α → Bytes → Prop}
    {B : α → ε → Bytes → Prop} (hr : Accepts r G) (hf : ∀ a, Refuses (f a) (B a)) :
    Refuses (r >>= f) fun e bs => ∃ a x y, bs = x ++ y ∧ G a x ∧ B a e y := by
  intro s e front rest hs hB
  obtain ⟨a, x, y, rfl, hG, hB⟩ := hB
  have hread : r s = .ok (a, Source.put s (y ++ rest)) :=
    (hr s a _).2 ⟨x, y ++ rest, by rw [hs, List.append_assoc], rfl, hG⟩
  show (r s >>= fun p => f p.1 p.2) = _
  rw [hread]
  exact hf a _ e y rest (Source.bytes_put s _) hB

/-- A failure behind a check that lets go on. -/
theorem checked {c : Prop} [Decidable c] {e : ε} {r : Unit → StateT σ (Except ε) α} {B : ε → Bytes → Prop}
    (h : Refuses (r ()) B) :
    Refuses (if c then MonadExcept.throw e >>= r else r ()) fun e bs => ¬ c ∧ B e bs := by
  intro s e front rest hs hB
  rw [if_neg hB.1]
  exact h s e front rest hs hB.2

/-- A step repeated over a list fails behind the values that it accepts before. -/
theorem mapM {γ : Type} {f : γ → StateT σ (Except ε) α} {G : α → Bytes → Prop} {B : γ → ε → Bytes → Prop}
    (hf : ∀ c, Accepts (f c) G) (hB : ∀ c, Refuses (f c) (B c)) (cs : List γ) :
    Refuses (cs.mapM f) fun e bs =>
      ∃ as c x y, bs = x ++ y ∧ Sequence G as x ∧ cs[as.length]? = some c ∧ B c e y := by
  induction cs with
  | nil =>
    intro s e front rest hs h
    obtain ⟨as, c, x, y, -, -, hc, -⟩ := h
    cases hc
  | cons c cs ih =>
    intro s e front rest hs h
    obtain ⟨as, d, x, y, rfl, hrows, hd, hbad⟩ := h
    rw [List.mapM_cons]
    cases hrows with
    | nil =>
      obtain rfl := Option.some.inj hd
      exact first (hB c) s e y rest hs hbad
    | @cons a x as xs ha hrows =>
      refine second (hf c) (fun a => first ih) s e _ rest hs ?_
      exact ⟨a, x, xs ++ y, List.append_assoc .., ha, as, d, xs, y, rfl, hrows, hd, hbad⟩

theorem within {r : Reader α} {B : Cause → Bytes → Prop} (h : Refuses r B) (place : Place) :
    Refuses (FileReader.within place r) fun f bs => ∃ cause, f = ⟨place, cause⟩ ∧ B cause bs := by
  intro s f front rest hs hB
  obtain ⟨cause, rfl, hB⟩ := hB
  show (r s).mapError _ = _
  rw [h s cause front rest hs hB]
  rfl

end Refuses

/-! ### Faulty layouts -/

/-- An attribute under a name that is read, whose contents cannot be decoded. -/
def FaultyAttribute (pool : Pool) (cause : Cause) (bs : Bytes) : Prop :=
  ∃ (name : Index) (info : Bytes) (kind : BodyKind) (fault : BodyFault), Framed name info bs ∧
    pool.utf8? name = some kind.name ∧ kind.decode pool info = .error fault ∧ cause = .body kind fault

/-- A count and some of the rows, and then a faulty one that tells its number. -/
def FaultyTable (G : α → Bytes → Prop) (B : Nat → ε → Bytes → Prop) (e : ε) (bs : Bytes) : Prop :=
  ∃ (count : UInt16) (rows : List α) (xs ys : Bytes), bs = of16 count ++ xs ++ ys ∧ rows.length < count.toNat ∧
    Sequence G rows xs ∧ B rows.length e ys

def FaultyAttributes (pool : Pool) : Cause → Bytes → Prop :=
  FaultyTable (AttributeLayout pool) fun _ => FaultyAttribute pool

def FaultyMember (pool : Pool) (cause : Cause) (bs : Bytes) : Prop :=
  ∃ (access : AccessFlags) (name descriptor : Index) (attributes : Bytes),
    bs = of16 access ++ of16 name ++ of16 descriptor ++ attributes ∧ FaultyAttributes pool cause attributes

def FaultyMembers (pool : Pool) (place : Nat → Place) : Failure → Bytes → Prop :=
  FaultyTable (MemberLayout pool) fun i f bs => ∃ cause, f = ⟨place i, cause⟩ ∧ FaultyMember pool cause bs

/-- What stands behind the header of a class, up to the fault. -/
inductive FaultyRest (pool : Pool) : Failure → Bytes → Prop where
  | inField {interfaces : List Index} {f : Failure} {is fs : Bytes} : Table IndexLayout interfaces is →
      FaultyMembers pool .field f fs → FaultyRest pool f (is ++ fs)
  | inMethod {interfaces : List Index} {fields : List Member} {f : Failure} {is fs ms : Bytes} :
      Table IndexLayout interfaces is → Table (MemberLayout pool) fields fs → FaultyMembers pool .method f ms →
      FaultyRest pool f (is ++ (fs ++ ms))
  | inClass {interfaces : List Index} {fields methods : List Member} {cause : Cause} {is fs ms as : Bytes} :
      Table IndexLayout interfaces is → Table (MemberLayout pool) fields fs → Table (MemberLayout pool) methods ms →
      FaultyAttributes pool cause as → FaultyRest pool ⟨.classAttributes, cause⟩ (is ++ (fs ++ (ms ++ as)))

/-- The bytes of a class file up to an attribute whose contents cannot be decoded. -/
inductive FaultyClass : Failure → Bytes → Prop where
  | mk (minor major count : UInt16) (access : AccessFlags) (this super : Index) {pool : Pool} {f : Failure}
      {slots rest : Bytes} :
      count.toNat = pool.slots.size + 1 → SlotsLayout pool.slots.toList slots → FaultyRest pool f rest →
      FaultyClass f ([0xCA, 0xFE, 0xBA, 0xBE] ++ of16 minor ++ of16 major ++ of16 count ++ slots ++
        of16 access ++ of16 this ++ of16 super ++ rest)

/-! ### Where the fault comes from -/

theorem FaultyTable.exists_row {G : α → Bytes → Prop} {B : Nat → ε → Bytes → Prop} {e : ε} {bs : Bytes}
    (h : FaultyTable G B e bs) : ∃ i ys, B i e ys := by
  obtain ⟨_, rows, _, ys, -, -, -, hB⟩ := h
  exact ⟨rows.length, ys, hB⟩

theorem FaultyAttributes.cause {pool : Pool} {cause : Cause} {bs : Bytes} (h : FaultyAttributes pool cause bs) :
    ∃ kind fault, cause = .body kind fault := by
  obtain ⟨_, _, _, _, kind, fault, -, -, -, hcause⟩ := FaultyTable.exists_row h
  exact ⟨kind, fault, hcause⟩

theorem FaultyMembers.cause {pool : Pool} {place : Nat → Place} {f : Failure} {bs : Bytes}
    (h : FaultyMembers pool place f bs) : ∃ kind fault, f.cause = .body kind fault := by
  obtain ⟨_, _, cause, rfl, _, _, _, _, -, hattributes⟩ := FaultyTable.exists_row h
  exact hattributes.cause

/-- The failure is one of contents. -/
theorem FaultyClass.cause {f : Failure} {bs : Bytes} (h : FaultyClass f bs) :
    ∃ kind fault, f.cause = .body kind fault := by
  obtain ⟨_, _, _, _, _, _, -, -, hrest⟩ := h
  cases hrest with
  | inField _ hfields => exact hfields.cause
  | inMethod _ _ hmethods => exact hmethods.cause
  | inClass _ _ _ hattributes => exact hattributes.cause

/-! ### Reading a faulty file -/

namespace Reader

/-- What is made of contents that cannot be decoded. -/
theorem contentsOf_refuses (pool : Pool) (name : UInt16) (info : Bytes) :
    Refuses (match (pool.utf8? name).bind BodyKind.ofName? with
        | none => return ⟨name, info, none⟩
        | some kind =>
          match kind.decode pool info with
          | .ok body => return ⟨name, info, some body⟩
          | .error fault => throw (.body kind fault) : Reader Attribute) fun cause bs =>
        bs = [] ∧ ∃ (kind : BodyKind) (fault : BodyFault), pool.utf8? name = some kind.name ∧
          kind.decode pool info = .error fault ∧ cause = .body kind fault := by
  intro s cause front rest hs h
  obtain ⟨-, kind, fault, hname, hdecode, rfl⟩ := h
  have hkind : (pool.utf8? name).bind BodyKind.ofName? = some kind := by
    rw [hname]
    exact BodyKind.ofName?_eq_some.2 rfl
  rw [hkind]
  dsimp only
  rw [hdecode]
  rfl

theorem attributeOf_refuses (pool : Pool) : Refuses (attributeOf pool) (FaultyAttribute pool) := by
  refine (Refuses.second (word16_accepts _) fun name => .second (word32_accepts _) fun length =>
    .second (take_accepts _ _) fun info => contentsOf_refuses pool name info).mono fun cause bs h => ?_
  obtain ⟨name, info, kind, fault, ⟨length, hlen, rfl⟩, hname, hdecode, rfl⟩ := h
  exact ⟨name, _, _, List.append_assoc .., rfl, length, _, info, rfl, rfl, info, info, [], (List.append_nil _).symm,
    ⟨rfl, hlen⟩, rfl, kind, fault, hname, hdecode, rfl⟩

/-- A count and then that many runs of a step, one of which fails. -/
theorem table_refuses {r : StateT Input (Except ε) UInt16} {f : Nat → StateT Input (Except ε) α}
    {G : α → Bytes → Prop} {B : Nat → ε → Bytes → Prop} (hr : Accepts r fun w bs => bs = of16 w)
    (hf : ∀ i, Accepts (f i) G) (hB : ∀ i, Refuses (f i) (B i)) :
    Refuses (do let count ← r; (List.range count.toNat).mapM f) (FaultyTable G B) := by
  refine (Refuses.second hr fun count => .mapM hf hB (List.range count.toNat)).mono fun e bs h => ?_
  obtain ⟨count, rows, xs, ys, rfl, hlen, hrows, hbad⟩ := h
  exact ⟨count, _, _, List.append_assoc .., rfl, rows, rows.length, xs, ys, rfl, hrows,
    List.getElem?_range hlen, hbad⟩

theorem attributes_refuses (pool : Pool) : Refuses (attributes pool) (FaultyAttributes pool) :=
  table_refuses (word16_accepts _) (fun _ => attributeOf_accepts pool) fun _ => attributeOf_refuses pool

theorem member_refuses (pool : Pool) : Refuses (member pool) (FaultyMember pool) := by
  refine (Refuses.second (word16_accepts _) fun access => .second (word16_accepts _) fun name =>
    .second (word16_accepts _) fun descriptor => .first (attributes_refuses pool)).mono fun cause bs h => ?_
  obtain ⟨access, name, descriptor, attributes, rfl, hattributes⟩ := h
  exact ⟨access, _, _, by simp only [List.append_assoc], rfl, name, _, _, rfl, rfl, descriptor, _, attributes, rfl,
    rfl, hattributes⟩

end Reader

namespace FileReader

theorem members_refuses (site : Site) (place : Nat → Place) (pool : Pool) :
    Refuses (members site place pool) (FaultyMembers pool place) :=
  Reader.table_refuses (word_accepts site) (fun i => (Reader.member_accepts pool).within (place i))
    fun i => (Reader.member_refuses pool).within (place i)

/-- A word of the header and what follows it. -/
theorem word_bind_refuses {site : Site} {f : UInt16 → FileReader α} {B : UInt16 → Failure → Bytes → Prop}
    (hf : ∀ w, Refuses (f w) (B w)) :
    Refuses (within .header (Reader.word16 site) >>= f) fun e bs => ∃ w y, bs = of16 w ++ y ∧ B w e y := by
  refine (Refuses.second (word_accepts site) hf).mono fun e bs h => ?_
  obtain ⟨w, y, rfl, hB⟩ := h
  exact ⟨w, _, y, rfl, rfl, hB⟩

/-- The interfaces and what follows them. -/
theorem interfaces_bind_refuses {f : List Index → FileReader α} {B : Failure → Bytes → Prop}
    (hf : ∀ interfaces, Refuses (f interfaces) B) :
    Refuses (do
      let count ← within .header (Reader.word16 .classInfo)
      let interfaces ← within .header (Reader.times count.toNat fun _ => Reader.word16 .interfaces)
      f interfaces) fun e bs => ∃ interfaces is y, bs = is ++ y ∧ Table IndexLayout interfaces is ∧ B e y := by
  refine (word_bind_refuses fun count => .second
    ((Accepts.mapM (fun _ => Reader.word16_accepts _) (List.range count.toNat)).within .header) hf).mono
    fun e bs h => ?_
  obtain ⟨interfaces, _, y, rfl, ⟨count, is, rfl, hcount, his⟩, hB⟩ := h
  exact ⟨count, is ++ y, List.append_assoc .., interfaces, is, y, rfl, ⟨by rw [hcount, List.length_range], his⟩, hB⟩

/-- The interfaces, the members and the attributes of a class, one of which is at fault. -/
theorem classContents_refuses (make : List Index → List Member → List Member → List Attribute → ClassModel)
    (pool : Pool) :
    Refuses (do
      let count ← within .header (Reader.word16 .classInfo)
      let interfaces ← within .header (Reader.times count.toNat fun _ => Reader.word16 .interfaces)
      let fields ← members .fieldCount .field pool
      let methods ← members .methodCount .method pool
      let attributes ← within .classAttributes (Reader.attributes pool)
      return make interfaces fields methods attributes) (FaultyRest pool) := by
  have hfields := members_accepts .fieldCount .field pool
  have hmethods := members_accepts .methodCount .method pool
  intro s f front rest hs h
  cases h with
  | inField his hfaulty =>
    exact interfaces_bind_refuses (fun _ => .first (members_refuses .fieldCount .field pool)) s f _ rest hs
      ⟨_, _, _, rfl, his, hfaulty⟩
  | inMethod his hfs hfaulty =>
    exact interfaces_bind_refuses (fun _ => .second hfields fun _ =>
      .first (members_refuses .methodCount .method pool)) s f _ rest hs
      ⟨_, _, _, rfl, his, _, _, _, rfl, hfs, hfaulty⟩
  | inClass his hfs hms hfaulty =>
    exact interfaces_bind_refuses (fun _ => .second hfields fun _ => .second hmethods fun _ =>
      .first ((Reader.attributes_refuses pool).within .classAttributes)) s _ _ rest hs
      ⟨_, _, _, rfl, his, _, _, _, rfl, hfs, _, _, _, rfl, hms, _, rfl, hfaulty⟩

theorem file_refuses : Refuses file FaultyClass := by
  refine (Refuses.second ((Reader.word32_accepts _).within .header) fun magic => .checked
    (word_bind_refuses fun minor => word_bind_refuses fun major => .second pool_accepts fun pool =>
    word_bind_refuses fun access => word_bind_refuses fun this => word_bind_refuses fun super =>
    classContents_refuses (ClassModel.mk minor major pool access this super) pool)).mono fun f bs h => ?_
  cases h with
  | @mk minor major count access this super pool f slots contents hcount hslots hfaulty =>
    exact ⟨0xCAFEBABE, _, _, by simp only [List.append_assoc]; rfl, rfl, by simp, minor, _, rfl, major, _, rfl, pool,
      _, _, (List.append_assoc ..).symm, ⟨count, slots, rfl, hcount, hslots⟩, access, _, rfl, this, _, rfl, super, _,
      rfl, hfaulty⟩

end FileReader

/-- **A file with contents that cannot be decoded is refused for them**, whatever stands behind them. -/
theorem FaultyClass.decode_eq {f : Failure} {front : Bytes} (h : FaultyClass f front) (rest : Bytes) (e : Ending) :
    decode ⟨front ++ rest, e⟩ = .error f := by
  rw [decode, FileReader.file_refuses ⟨front ++ rest, e⟩ f front rest rfl h]
  rfl

end ClassAtlas.ClassFile
