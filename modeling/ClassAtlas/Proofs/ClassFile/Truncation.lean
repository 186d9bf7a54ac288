import ClassAtlas.Proofs.ClassFile.Reading

/-! Where an input is cut, and what comes after the bytes that matter.

Given some bytes, a step does one of three things, and it does not hang on what follows them
(`Settles`): it reads its result and leaves a rest, to which later bytes are only added; it
refuses the bytes, and later bytes do not change its mind; or the bytes are too few, and it stops
at the place where they end, in whatever way the input ends there. Every step of the reader
settles, so the reader does (`file_settles`), and from this alone follows what it says of an input
that is cut (`decode_append_take`): a class file with any of its bytes missing at the end is
truncated, and is never taken for a class or for a malformed file. -/
namespace ClassAtlas.ClassFile

variable {σ ε α β : Type} {ended : ε → Bool} {stop : σ → Ending → ε}

/-! ### Steps that settle -/

/-- What a step does with the bytes `xs`. A failure `stop site e` tells that an input with the
ending `e` ended at `site`, and `ended` says whether a failure tells of the end of an input. -/
inductive Settles (ended : ε → Bool) (stop : σ → Ending → ε) (step : StateT Input (Except ε) α) (xs : Bytes) :
    Prop where
  | reads (a : α) (rest : Bytes) (run : ∀ ys e, step ⟨xs ++ ys, e⟩ = .ok (a, ⟨rest ++ ys, e⟩))
  | refuses (failure : ε) (other : ended failure = false)
      (run : ∀ ys e, step ⟨xs ++ ys, e⟩ = .error failure)
  | stops (site : σ) (run : ∀ e, step ⟨xs, e⟩ = .error (stop site e))

/-- A step that settles on every byte string. -/
def Settled (ended : ε → Bool) (stop : σ → Ending → ε) (step : StateT Input (Except ε) α) : Prop :=
  ∀ xs, Settles ended stop step xs

namespace Settled

theorem pure (a : α) : Settled ended stop (Pure.pure a) :=
  fun xs => .reads a xs fun _ _ => rfl

theorem throw {failure : ε} (h : ended failure = false) :
    Settled ended stop (MonadExcept.throw failure : StateT Input (Except ε) α) :=
  fun _ => .refuses failure h fun _ _ => rfl

theorem bind {r : StateT Input (Except ε) α} {f : α → StateT Input (Except ε) β} (hr : Settled ended stop r)
    (hf : ∀ a, Settled ended stop (f a)) : Settled ended stop (r >>= f) := by
  intro xs
  have hthen : ∀ s, (r >>= f) s = r s >>= fun p => f p.1 p.2 := fun _ => rfl
  cases hr xs with
  | reads a rest hread =>
    cases hf a rest with
    | reads b rest' hread' =>
      refine .reads b rest' fun ys e => ?_
      rw [hthen, hread]
      exact hread' ys e
    | refuses failure hother hrefuse =>
      refine .refuses failure hother fun ys e => ?_
      rw [hthen, hread]
      exact hrefuse ys e
    | stops site hstop =>
      -- Nothing follows `xs` here, so the first step leaves its rest as it is.
      have hread' : ∀ e, r ⟨xs, e⟩ = .ok (a, ⟨rest, e⟩) := by simpa using hread []
      refine .stops site fun e => ?_
      rw [hthen, hread']
      exact hstop e
  | refuses failure hother hrefuse =>
    refine .refuses failure hother fun ys e => ?_
    rw [hthen, hrefuse]
    rfl
  | stops site hstop =>
    refine .stops site fun e => ?_
    rw [hthen, hstop]
    rfl

/-- A check before a step goes on. -/
theorem checked {c : Prop} [Decidable c] {failure : ε} {r : Unit → StateT Input (Except ε) α}
    (hfailure : ended failure = false) (hr : Settled ended stop (r ())) :
    Settled ended stop (if c then MonadExcept.throw failure >>= r else r ()) := by
  split
  · exact (throw hfailure).bind fun _ => hr
  · exact hr

theorem mapM {γ : Type} {f : γ → StateT Input (Except ε) α} (hf : ∀ c, Settled ended stop (f c)) (cs : List γ) :
    Settled ended stop (cs.mapM f) := by
  induction cs with
  | nil =>
    rw [List.mapM_nil]
    exact pure []
  | cons c cs ih =>
    rw [List.mapM_cons]
    exact (hf c).bind fun a => ih.bind fun as => pure (a :: as)

end Settled

/-! ### Constants, attributes and members -/

/-- The cause is that an input ended, in whatever way. -/
def Cause.isEnd : Cause → Bool
  | truncated _ | broken .. => true
  | _ => false

/-- The input ended at a site. -/
def stopAt (site : Site) (e : Ending) : Cause := e.cause site

namespace Reader

theorem byte_settles (site : Site) : Settled Cause.isEnd stopAt (byte site) := by
  intro xs
  match xs with
  | a :: rest => exact .reads a rest fun _ _ => rfl
  | [] => exact .stops site fun _ => rfl

theorem word16_settles (site : Site) : Settled Cause.isEnd stopAt (word16 site) := by
  intro xs
  match xs with
  | a :: b :: rest => exact .reads (Bytes.word16 a b) rest fun _ _ => rfl
  | [_] | [] => exact .stops site fun _ => rfl

theorem word32_settles (site : Site) : Settled Cause.isEnd stopAt (word32 site) := by
  intro xs
  match xs with
  | a :: b :: c :: d :: rest => exact .reads (Bytes.word32 a b c d) rest fun _ _ => rfl
  | [_, _, _] | [_, _] | [_] | [] => exact .stops site fun _ => rfl

theorem take_settles (site : Site) (n : Nat) : Settled Cause.isEnd stopAt (take site n) := by
  intro xs
  by_cases hlen : n ≤ xs.length
  · refine .reads (xs.take n) (xs.drop n) fun ys e => ?_
    have hmore : n ≤ (xs ++ ys).length := by
      rw [List.length_append]
      omega
    unfold take
    rw [if_pos ((enough_iff _ _).2 hmore), List.take_append_of_le_length hlen,
      List.drop_append_of_le_length hlen]
  · refine .stops site fun e => ?_
    unfold take
    rw [if_neg fun h => hlen ((enough_iff _ _).1 h)]
    rfl

theorem constantBody_settles (kind : ConstantKind) : Settled Cause.isEnd stopAt (constantBody kind) := by
  cases kind with
  | utf8 => exact (word16_settles _).bind fun _ => (take_settles _ _).bind fun _ => .pure _
  | integer | float => exact (word32_settles _).bind fun _ => .pure _
  | long | double => exact (word32_settles _).bind fun _ => (word32_settles _).bind fun _ => .pure _
  | methodHandle => exact (byte_settles _).bind fun _ => (word16_settles _).bind fun _ => .pure _
  | fieldref | methodref | interfaceMethodref | nameAndType | dynamic | invokeDynamic =>
    exact (word16_settles _).bind fun _ => (word16_settles _).bind fun _ => .pure _
  | classRef | string | methodType | module | package => exact (word16_settles _).bind fun _ => .pure _

theorem constant_settles : Settled Cause.isEnd stopAt constant := by
  refine (byte_settles _).bind fun tag => ?_
  cases ConstantKind.ofTag? tag with
  | some kind => exact constantBody_settles kind
  | none => exact .throw rfl

theorem attributeOf_settles (pool : Pool) : Settled Cause.isEnd stopAt (attributeOf pool) := by
  refine (word16_settles _).bind fun name => (word32_settles _).bind fun length =>
    (take_settles _ _).bind fun info => ?_
  -- The contents are read from bytes that are all there, so no end of input shows in them.
  cases (pool.utf8? name).bind BodyKind.ofName? with
  | none => exact .pure _
  | some kind =>
    dsimp only
    cases kind.decode pool info with
    | ok body => exact .pure _
    | error fault => exact .throw rfl

theorem attributes_settles (pool : Pool) : Settled Cause.isEnd stopAt (attributes pool) :=
  (word16_settles _).bind fun _ => .mapM (fun _ => attributeOf_settles pool) _

theorem member_settles (pool : Pool) : Settled Cause.isEnd stopAt (member pool) :=
  (word16_settles _).bind fun _ => (word16_settles _).bind fun _ => (word16_settles _).bind fun _ =>
    (attributes_settles pool).bind fun _ => .pure _

end Reader

/-! ### The whole file -/

/-- The input ended at a site, in a place of the file. -/
def stopIn (spot : Place × Site) (e : Ending) : Failure := ⟨spot.1, e.cause spot.2⟩

theorem Settled.within {r : Reader α} (h : Settled Cause.isEnd stopAt r) (place : Place) :
    Settled (·.cause.isEnd) stopIn (FileReader.within place r) := by
  intro xs
  unfold FileReader.within
  cases h xs with
  | reads a rest hread =>
    refine .reads a rest fun ys e => ?_
    rw [hread]
    rfl
  | refuses cause hother hrefuse =>
    refine .refuses ⟨place, cause⟩ hother fun ys e => ?_
    rw [hrefuse]
    rfl
  | stops site hstop =>
    refine .stops (place, site) fun e => ?_
    rw [hstop]
    rfl

namespace FileReader

theorem poolSlots_settles (n index : Nat) (filled : Array (Option Constant)) :
    Settled (·.cause.isEnd) stopIn (poolSlots n index filled) := by
  induction n using Nat.strongRecOn generalizing index filled with
  | ind n ih =>
  cases n with
  | zero => exact .pure filled
  | succ n =>
    unfold poolSlots
    refine (Reader.constant_settles.within _).bind fun c => ?_
    split
    · split
      · exact .throw rfl
      · exact ih _ (by omega) _ _
    · exact ih n (Nat.lt_succ_self n) _ _

theorem word_settles (site : Site) : Settled (·.cause.isEnd) stopIn (within .header (Reader.word16 site)) :=
  (Reader.word16_settles site).within .header

theorem pool_settles : Settled (·.cause.isEnd) stopIn pool :=
  (word_settles _).bind fun _ => .checked rfl
    ((poolSlots_settles _ _ _).bind fun _ => .pure _)

theorem members_settles (site : Site) (place : Nat → Place) (pool : Pool) :
    Settled (·.cause.isEnd) stopIn (members site place pool) :=
  (word_settles site).bind fun _ => .mapM (fun i => (Reader.member_settles pool).within (place i)) _

theorem file_settles : Settled (·.cause.isEnd) stopIn file :=
  ((Reader.word32_settles _).within .header).bind fun _ => .checked rfl <|
    (word_settles _).bind fun _ => (word_settles _).bind fun _ => pool_settles.bind fun pool =>
    (word_settles _).bind fun _ => (word_settles _).bind fun _ => (word_settles _).bind fun _ =>
    (word_settles _).bind fun _ =>
    ((Settled.mapM (fun _ => Reader.word16_settles _) _).within .header).bind fun _ =>
    (members_settles _ _ pool).bind fun _ => (members_settles _ _ pool).bind fun _ =>
    ((Reader.attributes_settles pool).within _).bind fun _ => .pure _

end FileReader

/-- Reading a class settles on every byte string. -/
theorem decode_settles (xs : Bytes) :
    (∃ c rest, ∀ ys e, decode ⟨xs ++ ys, e⟩ = .ok (c, rest ++ ys)) ∨
    (∃ f, f.cause.isEnd = false ∧ ∀ ys e, decode ⟨xs ++ ys, e⟩ = .error f) ∨
    ∃ spot, ∀ e, decode ⟨xs, e⟩ = .error (stopIn spot e) := by
  unfold decode
  cases FileReader.file_settles xs with
  | reads c rest hread =>
    refine .inl ⟨c, rest, fun ys e => ?_⟩
    rw [hread]
    rfl
  | refuses f hother hrefuse =>
    refine .inr (.inl ⟨f, hother, fun ys e => ?_⟩)
    rw [hrefuse]
    rfl
  | stops spot hstop =>
    refine .inr (.inr ⟨spot, fun e => ?_⟩)
    rw [hstop]
    rfl

/-! ### Bytes after and bytes missing -/

/-- Unless the input ended too soon, more bytes are left unread and change nothing else. -/
theorem decode_append {xs : Bytes} {e : Ending} (h : ∀ spot, decode ⟨xs, e⟩ ≠ .error (stopIn spot e))
    (ys : Bytes) : decode ⟨xs ++ ys, e⟩ = (fun r => (r.1, r.2 ++ ys)) <$> decode ⟨xs, e⟩ := by
  obtain ⟨c, rest, hread⟩ | ⟨f, -, hrefuse⟩ | ⟨spot, hstop⟩ := decode_settles xs
  · have hread' : decode ⟨xs, e⟩ = .ok (c, rest) := by simpa using hread [] e
    rw [hread, hread']
    rfl
  · have hrefuse' : decode ⟨xs, e⟩ = .error f := by simpa using hrefuse [] e
    rw [hrefuse, hrefuse']
    rfl
  · exact absurd (hstop e) (h spot)

/-- A class file that is cut stops where it is cut. -/
theorem decode_take {xs rest : Bytes} {e : Ending} {c : ClassModel} (h : decode ⟨xs, e⟩ = .ok (c, rest)) {m : Nat}
    (hm : m < xs.length - rest.length) : ∃ spot, decode ⟨xs.take m, e⟩ = .error (stopIn spot e) := by
  by_contra hnone
  have happend := decode_append (fun spot hstop => hnone ⟨spot, hstop⟩) (xs.drop m)
  rw [List.take_append_drop, h, eq_comm, map_eq_ok] at happend
  obtain ⟨⟨c', rest'⟩, -, hresult⟩ := happend
  -- What the cut file leaves unread would be left unread of the whole, and that is too much.
  have hrest : rest' ++ xs.drop m = rest := (Prod.mk.inj hresult).2
  have hlen := congrArg List.length hrest
  rw [List.length_append, List.length_drop] at hlen
  omega

/-- **Nothing after the decisive byte matters, and nothing before it can be missing.** Unless the
input is truncated, added bytes change neither the class nor the failure and are left unread; and
if any byte that a class is read from is missing at the end, the input is truncated. -/
theorem decode_append_take (xs ys : Bytes) :
    ((∀ place site, decode ⟨xs, .finished⟩ ≠ .error ⟨place, .truncated site⟩) →
      decode ⟨xs ++ ys, .finished⟩ = (fun r => (r.1, r.2 ++ ys)) <$> decode ⟨xs, .finished⟩) ∧
    ∀ c rest, decode ⟨xs, .finished⟩ = .ok (c, rest) → ∀ m < xs.length - rest.length,
      ∃ place site, decode ⟨xs.take m, .finished⟩ = .error ⟨place, .truncated site⟩ := by
  constructor
  · intro h
    exact decode_append (fun spot => h spot.1 spot.2) ys
  · intro c rest h m hm
    obtain ⟨spot, hstop⟩ := decode_take h hm
    exact ⟨spot.1, spot.2, hstop⟩

/-- A class file with a text, a number of two slots and an attribute. -/
def attributedFile : Bytes :=
  [0xCA, 0xFE, 0xBA, 0xBE, 0, 0, 0, 52, 0, 4, 1, 0, 1, 65, 5, 0, 0, 0, 0, 0, 0, 0, 7,
   0, 1, 0, 0, 0, 0, 0, 0, 0, 0, 0, 0, 0, 1, 0, 1, 0, 0, 0, 2, 8, 9]

def attributedClass : ClassModel where
  minor := 0
  major := 52
  pool := ⟨#[some (.utf8 "A"), some (.long 7), none]⟩
  access := 1
  this := 0
  super := 0
  interfaces := []
  fields := []
  methods := []
  attributes := [⟨1, [8, 9], none⟩]

theorem decode_attributedFile : decode ⟨attributedFile, .finished⟩ = .ok (attributedClass, []) := by
  decide +kernel

/-- Two bytes more are left unread, and no byte less suffices. A pool without a count stays a failure. -/
theorem attributedFile_append_take :
    decode ⟨attributedFile ++ [1, 2], .finished⟩ = .ok (attributedClass, [1, 2]) ∧
    (∀ m < attributedFile.length, ∃ place site,
      decode ⟨attributedFile.take m, .finished⟩ = .error ⟨place, .truncated site⟩) ∧
    decode ⟨attributedFile.take 8 ++ [0, 0] ++ [1, 2], .finished⟩ = .error ⟨.header, .noPool⟩ := by
  have hempty : decode ⟨attributedFile.take 8 ++ [0, 0], .finished⟩ = .error ⟨.header, .noPool⟩ := by
    decide +kernel
  obtain ⟨hmore, hless⟩ := decode_append_take attributedFile [1, 2]
  obtain ⟨hsame, -⟩ := decode_append_take (attributedFile.take 8 ++ [0, 0]) [1, 2]
  rw [decode_attributedFile] at hmore
  rw [hempty] at hsame
  exact ⟨hmore nofun, hless attributedClass [] decode_attributedFile, hsame nofun⟩

end ClassAtlas.ClassFile
