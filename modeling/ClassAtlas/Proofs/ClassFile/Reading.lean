import ClassAtlas.Proofs.ClassFile.Layout

/-! What the steps of reading a class accept.

Each step accepts the layout of what it reads: words, constants by kind, tables of rows of a
fixed width, the contents of attributes by name, attributes and members. An attribute's frame
is read in two places, in the file and inside a code body, so it is treated once for both
(`framed_accepts`); so are the four kinds of rows (`ReadsRows`). -/
namespace ClassAtlas.ClassFile
open Bytes

/-! ### Words -/

theorem of16_word16 (a b : UInt8) : of16 (word16 a b) = [a, b] := by
  have ha := a.toNat_lt
  have hb := b.toNat_lt
  have hw : (word16 a b).toNat = a.toNat * 256 + b.toNat := by
    simp only [word16, UInt16.toNat_ofNat']
    omega
  simp only [of16, hw, List.cons.injEq, and_true, ← UInt8.toNat_inj, UInt8.toNat_ofNat']
  omega

theorem of32_word32 (a b c d : UInt8) : of32 (word32 a b c d) = [a, b, c, d] := by
  have ha := a.toNat_lt
  have hb := b.toNat_lt
  have hc := c.toNat_lt
  have hd := d.toNat_lt
  have hw : (word32 a b c d).toNat = ((a.toNat * 256 + b.toNat) * 256 + c.toNat) * 256 + d.toNat := by
    simp only [word32, UInt32.toNat_ofNat']
    omega
  simp only [of32, hw, List.cons.injEq, and_true, ← UInt8.toNat_inj, UInt8.toNat_ofNat']
  omega

theorem of64_word64 (high low : UInt32) : of64 (word64 high low) = of32 high ++ of32 low := by
  have hh := high.toNat_lt
  have hl := low.toNat_lt
  have hw : (word64 high low).toNat = high.toNat * 4294967296 + low.toNat := by
    simp only [word64, UInt64.toNat_ofNat']
    omega
  have h1 : UInt32.ofNat ((word64 high low).toNat / 4294967296) = high := by
    apply UInt32.toNat_inj.1
    rw [hw, UInt32.toNat_ofNat']
    omega
  have h2 : UInt32.ofNat ((word64 high low).toNat % 4294967296) = low := by
    apply UInt32.toNat_inj.1
    rw [hw, UInt32.toNat_ofNat']
    omega
  rw [of64, h1, h2]

theorem word64_of64 (w : UInt64) :
    word64 (UInt32.ofNat (w.toNat / 4294967296)) (UInt32.ofNat (w.toNat % 4294967296)) = w := by
  have h := w.toNat_lt
  apply UInt64.toNat_inj.1
  simp only [word64, UInt64.toNat_ofNat', UInt32.toNat_ofNat']
  omega

theorem of16_injective {v w : UInt16} (h : of16 v = of16 w) : v = w := by
  have hv := word16_of16 v
  simp only [of16, List.cons.injEq, and_true] at h
  rw [h.1, h.2, word16_of16] at hv
  exact hv.symm

theorem of32_injective {v w : UInt32} (h : of32 v = of32 w) : v = w := by
  have hv := word32_of32 v
  simp only [of32, List.cons.injEq, and_true] at h
  rw [h.1, h.2.1, h.2.2.1, h.2.2.2, word32_of32] at hv
  exact hv.symm

/-! ### Steps that take bytes -/

theorem eq_pair {bs : Bytes} (h : bs.length = 2) : ∃ a b, bs = [a, b] :=
  match bs, h with
  | [a, b], _ => ⟨a, b, rfl⟩

theorem eq_four {bs : Bytes} (h : bs.length = 4) : ∃ a b c d, bs = [a, b, c, d] :=
  match bs, h with
  | [a, b, c, d], _ => ⟨a, b, c, d, rfl⟩

namespace Reader

theorem byte_accepts (site : Site) : Accepts (byte site) fun a bs => bs = [a] := by
  refine .of_width 1 (fun s front rest hs hfront => ?_) (fun s hs => ?_) (by simp) (by simp)
  · obtain ⟨a, rfl⟩ := List.length_eq_one_iff.1 hfront
    have hs : s.bytes = a :: rest := hs
    exact ⟨a, rfl, by simp only [byte, hs]; rfl⟩
  · have hs : s.bytes = [] := List.length_eq_zero_iff.1 (Nat.lt_one_iff.1 hs)
    exact ⟨s.ending.cause site, by simp only [byte, hs]⟩

theorem word16_accepts (site : Site) : Accepts (word16 site) fun w bs => bs = of16 w := by
  refine .of_width 2 (fun s front rest hs hfront => ?_) (fun s hs => ⟨s.ending.cause site, ?_⟩) (by simp)
    (fun a b bs ha hb => of16_injective (ha.symm.trans hb))
  · obtain ⟨a, b, rfl⟩ := eq_pair hfront
    have hs : s.bytes = a :: b :: rest := hs
    exact ⟨_, (of16_word16 a b).symm, by simp only [word16, hs]; rfl⟩
  · have hs : s.bytes.length < 2 := hs
    unfold word16
    split
    · rename_i heq
      simp only [heq, List.length_cons] at hs
      omega
    · rfl

theorem word32_accepts (site : Site) : Accepts (word32 site) fun w bs => bs = of32 w := by
  refine .of_width 4 (fun s front rest hs hfront => ?_) (fun s hs => ⟨s.ending.cause site, ?_⟩) (by simp)
    (fun a b bs ha hb => of32_injective (ha.symm.trans hb))
  · obtain ⟨a, b, c, d, rfl⟩ := eq_four hfront
    have hs : s.bytes = a :: b :: c :: d :: rest := hs
    exact ⟨_, (of32_word32 a b c d).symm, by simp only [word32, hs]; rfl⟩
  · have hs : s.bytes.length < 4 := hs
    unfold word32
    split
    · rename_i heq
      simp only [heq, List.length_cons] at hs
      omega
    · rfl

/-- Whether there are as many bytes is seen at the last of them. -/
theorem enough_iff (bs : Bytes) (n : Nat) : (n = 0 || !(bs.drop (n - 1)).isEmpty) = true ↔ n ≤ bs.length := by
  simp
  omega

theorem take_accepts (site : Site) (n : Nat) :
    Accepts (take site n) fun bs front => front = bs ∧ bs.length = n := by
  refine .of_width n (fun s front rest hs hfront => ?_) (fun s hs => ⟨s.ending.cause site, ?_⟩) (by simp) ?_
  · have hs : s.bytes = front ++ rest := hs
    subst hfront
    refine ⟨front, ⟨rfl, rfl⟩, ?_⟩
    unfold take
    rw [if_pos ((enough_iff _ _).2 (by simp [hs])), hs, List.take_left, List.drop_left]
    rfl
  · have hs : s.bytes.length < n := hs
    unfold take
    rw [if_neg (fun h => Nat.not_le.2 hs ((enough_iff _ _).1 h))]
  · rintro a b _ ⟨rfl, _⟩ ⟨h, _⟩
    exact h

end Reader

namespace BodyReader

theorem word16_accepts : Accepts word16 fun w bs => bs = of16 w := by
  refine .of_width 2 (fun s front rest hs hfront => ?_) (fun s hs => ⟨.table .short, ?_⟩) (by simp)
    (fun a b bs ha hb => of16_injective (ha.symm.trans hb))
  · obtain ⟨a, b, rfl⟩ := eq_pair hfront
    obtain rfl : s = a :: b :: rest := hs
    exact ⟨_, (of16_word16 a b).symm, rfl⟩
  · have hs : s.length < 2 := hs
    unfold word16
    split
    · simp only [List.length_cons] at hs
      omega
    · rfl

theorem word32_accepts : Accepts word32 fun w bs => bs = of32 w := by
  refine .of_width 4 (fun s front rest hs hfront => ?_) (fun s hs => ⟨.table .short, ?_⟩) (by simp)
    (fun a b bs ha hb => of32_injective (ha.symm.trans hb))
  · obtain ⟨a, b, c, d, rfl⟩ := eq_four hfront
    obtain rfl : s = a :: b :: c :: d :: rest := hs
    exact ⟨_, (of32_word32 a b c d).symm, rfl⟩
  · have hs : s.length < 4 := hs
    unfold word32
    split
    · simp only [List.length_cons] at hs
      omega
    · rfl

theorem take_accepts (n : Nat) : Accepts (take n) fun bs front => front = bs ∧ bs.length = n := by
  refine .of_width n (fun s front rest hs hfront => ?_) (fun s hs => ⟨.table .short, ?_⟩) (by simp) ?_
  · obtain rfl : s = front ++ rest := hs
    subst hfront
    refine ⟨front, ⟨rfl, rfl⟩, ?_⟩
    unfold take
    rw [if_pos (by simp), List.take_left, List.drop_left]
    rfl
  · have hs : s.length < n := hs
    unfold take
    rw [if_neg (Nat.not_le.2 hs)]
  · rintro a b _ ⟨rfl, _⟩ ⟨h, _⟩
    exact h

end BodyReader

/-! ### Constants -/

theorem ConstantKind.tag_of_ofTag? {t : UInt8} {kind : ConstantKind} (h : ofTag? t = some kind) :
    kind.tag = t := by
  simpa using List.find?_some h

theorem ConstantLayout.starts {c : Constant} {bs : Bytes} (h : ConstantLayout c bs) :
    ∃ rest, bs = c.kind.tag :: rest := by
  cases h <;> exact ⟨_, rfl⟩

/-- All but a text is spelled in one way. -/
theorem ConstantLayout.unique {c : Constant} {x y : Bytes} (hc : c.kind ≠ .utf8) (hx : ConstantLayout c x)
    (hy : ConstantLayout c y) : x = y := by
  cases hx
  case utf8 => exact absurd rfl hc
  all_goals
    cases hy
    rfl

theorem Constant.isWide_eq (c : Constant) : c.isWide = c.kind.isWide := by
  cases c <;> rfl

namespace Reader

/-- A constant made of one word. -/
theorem single_accepts (site : Site) (make : UInt16 → Constant) :
    Accepts (do return make (← word16 site)) fun c bs => ∃ w, c = make w ∧ bs = of16 w := by
  refine ((word16_accepts site).bind fun w => .pure (make w)).congr fun c bs => ?_
  constructor
  · rintro ⟨w, _, _, rfl, rfl, rfl, rfl⟩
    exact ⟨w, rfl, List.append_nil _⟩
  · rintro ⟨w, rfl, rfl⟩
    exact ⟨w, _, [], (List.append_nil _).symm, rfl, rfl, rfl⟩

/-- A constant made of two words. -/
theorem double_accepts (site : Site) (make : UInt16 → UInt16 → Constant) :
    Accepts (do let v ← word16 site; return make v (← word16 site)) fun c bs =>
      ∃ w : UInt16 × UInt16, c = make w.1 w.2 ∧ bs = of16 w.1 ++ of16 w.2 := by
  refine ((word16_accepts site).bind fun v => single_accepts site (make v)).congr fun c bs => ?_
  constructor
  · rintro ⟨v, _, _, rfl, rfl, w, rfl, rfl⟩
    exact ⟨(v, w), rfl, rfl⟩
  · rintro ⟨⟨v, w⟩, rfl, rfl⟩
    exact ⟨v, _, _, rfl, rfl, w, rfl, rfl⟩

/-- A constant made of four bytes. -/
theorem half_accepts (site : Site) (make : UInt32 → Constant) :
    Accepts (do return make (← word32 site)) fun c bs => ∃ w, c = make w ∧ bs = of32 w := by
  refine ((word32_accepts site).bind fun w => .pure (make w)).congr fun c bs => ?_
  constructor
  · rintro ⟨w, _, _, rfl, rfl, rfl, rfl⟩
    exact ⟨w, rfl, List.append_nil _⟩
  · rintro ⟨w, rfl, rfl⟩
    exact ⟨w, _, [], (List.append_nil _).symm, rfl, rfl, rfl⟩

/-- A constant made of eight bytes. -/
theorem long_accepts (site : Site) (make : UInt64 → Constant) :
    Accepts (do let high ← word32 site; let low ← word32 site; return make (Bytes.word64 high low)) fun c bs =>
      ∃ w, c = make w ∧ bs = of64 w := by
  refine ((word32_accepts site).bind fun high => half_accepts site fun low => make (Bytes.word64 high low)).congr
    fun c bs => ?_
  constructor
  · rintro ⟨high, _, _, rfl, rfl, low, rfl, rfl⟩
    exact ⟨_, rfl, (of64_word64 high low).symm⟩
  · rintro ⟨w, rfl, rfl⟩
    exact ⟨_, _, _, rfl, rfl, _, by rw [word64_of64], rfl⟩

theorem utf8_accepts (site : Site) :
    Accepts (do
      let length ← word16 site
      let bytes ← take site length.toNat
      return Constant.utf8 (Text.ModifiedUtf8.decode bytes)) fun c bs =>
        ∃ (length : UInt16) (payload : Bytes), payload.length = length.toNat ∧
          c = .utf8 (Text.ModifiedUtf8.decode payload) ∧ bs = of16 length ++ payload := by
  refine ((word16_accepts site).bind fun length => (take_accepts site length.toNat).bind fun payload =>
    .pure (Constant.utf8 (Text.ModifiedUtf8.decode payload))).congr fun c bs => ?_
  constructor
  · rintro ⟨length, _, _, rfl, rfl, payload, _, _, rfl, ⟨rfl, hlen⟩, rfl, rfl⟩
    exact ⟨length, _, hlen, rfl, by rw [List.append_nil]⟩
  · rintro ⟨length, payload, hlen, rfl, rfl⟩
    exact ⟨length, _, _, rfl, rfl, payload, payload, [], (List.append_nil _).symm, ⟨rfl, hlen⟩, rfl, rfl⟩

theorem handle_accepts (site : Site) :
    Accepts (do let action ← byte site; return Constant.methodHandle action (← word16 site)) fun c bs =>
      ∃ w : UInt8 × UInt16, c = .methodHandle w.1 w.2 ∧ bs = w.1 :: of16 w.2 := by
  refine ((byte_accepts site).bind fun action => single_accepts site (.methodHandle action)).congr fun c bs => ?_
  constructor
  · rintro ⟨action, _, _, rfl, rfl, target, rfl, rfl⟩
    exact ⟨(action, target), rfl, rfl⟩
  · rintro ⟨⟨action, target⟩, rfl, rfl⟩
    exact ⟨action, [action], _, rfl, rfl, target, rfl, rfl⟩

/-- The constants of a kind are made in one way from their parts, and spelled in one way. -/
theorem form_accepts {ω : Type} {r : Reader Constant} {kind : ConstantKind} {make : ω → Constant}
    {spell : ω → Bytes} (hr : Accepts r fun c bs => ∃ w, c = make w ∧ bs = spell w) (hne : kind ≠ .utf8)
    (hmake : ∀ w, ConstantLayout (make w) (kind.tag :: spell w)) (hkind : ∀ w, (make w).kind = kind)
    (hall : ∀ c, c.kind = kind → ∃ w, c = make w) :
    Accepts r fun c bs => c.kind = kind ∧ ConstantLayout c (kind.tag :: bs) := by
  refine hr.congr fun c bs => ?_
  constructor
  · rintro ⟨w, rfl, rfl⟩
    exact ⟨hkind w, hmake w⟩
  · rintro ⟨hc, h⟩
    obtain ⟨w, rfl⟩ := hall c hc
    exact ⟨w, rfl, (List.cons.inj (h.unique (hkind w ▸ hne) (hmake w))).2⟩

/-- The contents of a constant, behind its tag. -/
theorem constantBody_accepts (kind : ConstantKind) :
    Accepts (constantBody kind) fun c bs => c.kind = kind ∧ ConstantLayout c (kind.tag :: bs) := by
  cases kind with
  | utf8 =>
    refine (utf8_accepts _).congr fun c bs => ⟨?_, ?_⟩
    · rintro ⟨length, payload, hlen, rfl, rfl⟩
      exact ⟨rfl, .utf8 length payload hlen⟩
    · rintro ⟨-, h⟩
      cases h with
      | utf8 length payload hlen => exact ⟨length, payload, hlen, rfl, rfl⟩
  | integer =>
    exact form_accepts (half_accepts _ fun w => .integer w.toInt32) nofun (fun w => .integer w.toInt32)
      (fun _ => rfl) fun c h => by cases c <;> cases h; exact ⟨Int32.toUInt32 _, rfl⟩
  | float =>
    exact form_accepts (half_accepts _ .float) nofun .float (fun _ => rfl) fun c h => by
      cases c <;> cases h; exact ⟨_, rfl⟩
  | long =>
    exact form_accepts (long_accepts _ fun w => .long w.toInt64) nofun (fun w => .long w.toInt64)
      (fun _ => rfl) fun c h => by cases c <;> cases h; exact ⟨Int64.toUInt64 _, rfl⟩
  | double =>
    exact form_accepts (long_accepts _ .double) nofun .double (fun _ => rfl) fun c h => by
      cases c <;> cases h; exact ⟨_, rfl⟩
  | classRef =>
    exact form_accepts (single_accepts _ .classRef) nofun .classRef (fun _ => rfl) fun c h => by
      cases c <;> cases h; exact ⟨_, rfl⟩
  | string =>
    exact form_accepts (single_accepts _ .string) nofun .string (fun _ => rfl) fun c h => by
      cases c <;> cases h; exact ⟨_, rfl⟩
  | fieldref =>
    exact form_accepts (double_accepts _ .fieldref) nofun (fun w => .fieldref w.1 w.2) (fun _ => rfl) fun c h => by
      cases c <;> cases h; exact ⟨(_, _), rfl⟩
  | methodref =>
    exact form_accepts (double_accepts _ .methodref) nofun (fun w => .methodref w.1 w.2) (fun _ => rfl) fun c h => by
      cases c <;> cases h; exact ⟨(_, _), rfl⟩
  | interfaceMethodref =>
    exact form_accepts (double_accepts _ .interfaceMethodref) nofun (fun w => .interfaceMethodref w.1 w.2)
      (fun _ => rfl) fun c h => by cases c <;> cases h; exact ⟨(_, _), rfl⟩
  | nameAndType =>
    exact form_accepts (double_accepts _ .nameAndType) nofun (fun w => .nameAndType w.1 w.2) (fun _ => rfl)
      fun c h => by cases c <;> cases h; exact ⟨(_, _), rfl⟩
  | methodHandle =>
    exact form_accepts (handle_accepts _) nofun (fun w => .methodHandle w.1 w.2) (fun _ => rfl) fun c h => by
      cases c <;> cases h; exact ⟨(_, _), rfl⟩
  | methodType =>
    exact form_accepts (single_accepts _ .methodType) nofun .methodType (fun _ => rfl) fun c h => by
      cases c <;> cases h; exact ⟨_, rfl⟩
  | dynamic =>
    exact form_accepts (double_accepts _ .dynamic) nofun (fun w => .dynamic w.1 w.2) (fun _ => rfl) fun c h => by
      cases c <;> cases h; exact ⟨(_, _), rfl⟩
  | invokeDynamic =>
    exact form_accepts (double_accepts _ .invokeDynamic) nofun (fun w => .invokeDynamic w.1 w.2) (fun _ => rfl)
      fun c h => by cases c <;> cases h; exact ⟨(_, _), rfl⟩
  | module =>
    exact form_accepts (single_accepts _ .module) nofun .module (fun _ => rfl) fun c h => by
      cases c <;> cases h; exact ⟨_, rfl⟩
  | package =>
    exact form_accepts (single_accepts _ .package) nofun .package (fun _ => rfl) fun c h => by
      cases c <;> cases h; exact ⟨_, rfl⟩

/-- What follows a tag. -/
theorem afterTag_accepts (tag : UInt8) :
    Accepts (match ConstantKind.ofTag? tag with
      | some kind => constantBody kind
      | none => throw (.unknownTag tag)) fun c bs =>
        ∃ kind, ConstantKind.ofTag? tag = some kind ∧ c.kind = kind ∧ ConstantLayout c (kind.tag :: bs) := by
  cases ConstantKind.ofTag? tag with
  | none => exact (Accepts.throw _).congr fun c bs => by simp
  | some kind =>
    refine (constantBody_accepts kind).congr fun c bs => ?_
    simp only [Option.some.injEq, exists_eq_left']

theorem constant_accepts : Accepts constant ConstantLayout := by
  refine ((byte_accepts _).bind afterTag_accepts).congr fun c bs => ?_
  constructor
  · rintro ⟨tag, _, rest, rfl, rfl, kind, htag, _, h⟩
    rw [ConstantKind.tag_of_ofTag? htag] at h
    exact h
  · intro h
    obtain ⟨rest, rfl⟩ := h.starts
    exact ⟨c.kind.tag, [c.kind.tag], rest, rfl, rfl, c.kind, ConstantKind.ofTag?_tag c.kind, rfl, h⟩

end Reader

/-! ### Tables -/

theorem Table.exists_of_mem {α : Type} {G : α → Bytes → Prop} {rows : List α} {bs : Bytes} (h : Table G rows bs)
    {a : α} (ha : a ∈ rows) : ∃ x, G a x := by
  obtain ⟨_, xs, -, -, hrows⟩ := h
  induction hrows with
  | nil => cases ha
  | cons hfirst _ ih =>
    rcases List.mem_cons.1 ha with rfl | ha
    · exact ⟨_, hfirst⟩
    · exact ih ha

/-- A reader of rows of a fixed width: it reads the rows that bytes spell, and all bytes of
that width spell one. -/
structure ReadsRows (read : Bytes → List α) (G : α → Bytes → Prop) (width : Nat) : Prop where
  nil : read [] = []
  cons : ∀ a x rest, G a x → read (x ++ rest) = a :: read rest
  all : ∀ x : Bytes, x.length = width → ∃ a, G a x
  width : ∀ a x, G a x → x.length = width

namespace ReadsRows

variable {read : Bytes → List α} {G : α → Bytes → Prop} {width : Nat}

theorem read_eq (h : ReadsRows read G width) {rows : List α} {bs : Bytes} (hs : Sequence G rows bs) :
    read bs = rows := by
  induction hs with
  | nil => exact h.nil
  | cons hG _ ih => rw [h.cons _ _ _ hG, ih]

theorem length_eq (h : ReadsRows read G width) {rows : List α} {bs : Bytes} (hs : Sequence G rows bs) :
    bs.length = rows.length * width := by
  induction hs with
  | nil => simp
  | cons hG _ ih =>
    rw [List.length_append, h.width _ _ hG, ih, List.length_cons, Nat.succ_mul, Nat.add_comm]

theorem exists_rows (h : ReadsRows read G width) (n : Nat) (bs : Bytes) (hlen : bs.length = n * width) :
    ∃ rows, Sequence G rows bs ∧ rows.length = n := by
  induction n generalizing bs with
  | zero =>
    obtain rfl := List.length_eq_zero_iff.1 (hlen.trans (Nat.zero_mul width))
    exact ⟨[], .nil, rfl⟩
  | succ n ih =>
    rw [Nat.succ_mul] at hlen
    obtain ⟨a, ha⟩ := h.all (bs.take width) (List.length_take_of_le (by omega))
    obtain ⟨rows, hrows, hn⟩ := ih (bs.drop width) (by rw [List.length_drop]; omega)
    refine ⟨a :: rows, ?_, congrArg (· + 1) hn⟩
    have hcons := Sequence.cons ha hrows
    rwa [List.take_append_drop] at hcons

/-- Bytes for `n` rows are read as the one list of rows they spell. -/
theorem read_iff (h : ReadsRows read G width) (n : Nat) (bs : Bytes) (rows : List α) :
    bs.length = n * width ∧ read bs = rows ↔ rows.length = n ∧ Sequence G rows bs := by
  constructor
  · rintro ⟨hlen, rfl⟩
    obtain ⟨rows, hrows, hn⟩ := h.exists_rows n bs hlen
    rw [h.read_eq hrows]
    exact ⟨hn, hrows⟩
  · rintro ⟨rfl, hrows⟩
    exact ⟨h.length_eq hrows, h.read_eq hrows⟩

/-- A table that fills its attribute. -/
theorem counted_iff (h : ReadsRows read G width) (info : Bytes) (rows : List α) :
    read <$> counted width info = .ok rows ↔ Table G rows info := by
  unfold counted
  split
  · rename_i a b xs
    have hcount : (∃ ys, a :: b :: xs = of16 (word16 a b) ++ ys ∧ rows.length = (word16 a b).toNat ∧
        Sequence G rows ys) ↔ Table G rows (a :: b :: xs) := by
      constructor
      · rintro ⟨ys, hxs, hlen, hrows⟩
        exact ⟨_, ys, hxs, hlen, hrows⟩
      · rintro ⟨count, ys, hxs, hlen, hrows⟩
        obtain ⟨rfl, rfl, rfl⟩ : a = UInt8.ofNat (count.toNat / 256) ∧ b = UInt8.ofNat (count.toNat % 256) ∧
          xs = ys := by simpa [of16] using hxs
        rw [word16_of16]
        exact ⟨xs, rfl, hlen, hrows⟩
    rw [← hcount, of16_word16]
    have hread := h.read_iff (word16 a b).toNat xs rows
    split
    · rename_i hlen
      simp only [hlen, true_and] at hread
      constructor
      · intro hok
        exact ⟨xs, rfl, hread.1 (Except.ok.inj hok)⟩
      · rintro ⟨ys, hxs, hrows⟩
        obtain rfl : xs = ys := by simpa using hxs
        exact congrArg Except.ok (hread.2 hrows)
    · rename_i hlen
      simp only [hlen, false_and, false_iff] at hread
      constructor
      · intro hok
        cases hok
      · rintro ⟨ys, hxs, hrows⟩
        obtain rfl : xs = ys := by simpa using hxs
        exact absurd hrows hread
  · rename_i hshort
    constructor
    · intro hok
      cases hok
    · rintro ⟨count, ys, rfl, _, _⟩
      exact absurd rfl (hshort _ _ _)

end ReadsRows

theorem readIndices_rows : ReadsRows readIndices IndexLayout 2 where
  nil := rfl
  cons := by
    rintro i _ rest rfl
    simp [of16, readIndices, word16_of16]
  all := by
    intro x hx
    obtain ⟨a, b, rfl⟩ := eq_pair hx
    exact ⟨_, (of16_word16 a b).symm⟩
  width := by
    rintro i _ rfl
    rfl

theorem readParameters_rows : ReadsRows readParameters ParameterLayout 4 where
  nil := rfl
  cons := by
    rintro p _ rest rfl
    simp [of16, readParameters, word16_of16]
  all := by
    intro x hx
    obtain ⟨a, b, c, d, rfl⟩ := eq_four hx
    exact ⟨⟨word16 a b, word16 c d⟩, by simp [ParameterLayout, of16_word16]⟩
  width := by
    rintro p _ rfl
    rfl

theorem readHandlers_rows : ReadsRows readHandlers HandlerLayout 8 where
  nil := rfl
  cons := by
    rintro h _ rest rfl
    simp [of16, readHandlers, word16_of16]
  all := by
    intro x hx
    match x, hx with
    | [a, b, c, d, e, f, g, h], _ =>
      exact ⟨⟨word16 a b, word16 c d, word16 e f, word16 g h⟩, by simp [HandlerLayout, of16_word16]⟩
  width := by
    rintro h _ rfl
    rfl

theorem readLocals_rows : ReadsRows readLocals LocalLayout 10 where
  nil := rfl
  cons := by
    rintro l _ rest rfl
    simp [of16, readLocals, word16_of16]
  all := by
    intro x hx
    match x, hx with
    | [a, b, c, d, e, f, g, h, i, j], _ =>
      exact ⟨⟨word16 a b, word16 c d, word16 e f, word16 g h, word16 i j⟩, by simp [LocalLayout, of16_word16]⟩
  width := by
    rintro l _ rfl
    rfl

/-! ### Attributes -/

/-- The name, the length and the bytes of an attribute, and then what is made of them. -/
theorem framed_accepts {σ ε α : Type} [Source σ] {r16 : StateT σ (Except ε) UInt16}
    {r32 : StateT σ (Except ε) UInt32} {rTake : Nat → StateT σ (Except ε) Bytes}
    {make : UInt16 → Bytes → StateT σ (Except ε) α} {H : UInt16 → Bytes → α → Prop}
    (h16 : Accepts r16 fun w bs => bs = of16 w) (h32 : Accepts r32 fun w bs => bs = of32 w)
    (hTake : ∀ n, Accepts (rTake n) fun bs front => front = bs ∧ bs.length = n)
    (hmake : ∀ name info, Accepts (make name info) fun a bs => H name info a ∧ bs = []) :
    Accepts (do
      let name ← r16
      let length ← r32
      let info ← rTake length.toNat
      make name info) fun a bs => ∃ name info, Framed name info bs ∧ H name info a := by
  refine (h16.bind fun name => h32.bind fun length => (hTake length.toNat).bind fun info =>
    hmake name info).congr fun a bs => ?_
  constructor
  · rintro ⟨name, _, _, rfl, rfl, length, _, _, rfl, rfl, info, _, _, rfl, ⟨rfl, hlen⟩, hH, rfl⟩
    exact ⟨name, _, ⟨length, hlen, by simp⟩, hH⟩
  · rintro ⟨name, info, ⟨length, hlen, rfl⟩, hH⟩
    exact ⟨name, _, _, List.append_assoc .., rfl, length, _, _, rfl, rfl, info, info, [], by simp,
      ⟨rfl, hlen⟩, hH, rfl⟩

namespace BodyReader

theorem decodeLocals_iff (info : Bytes) (rows : List Local) :
    decodeLocals info = .ok rows ↔ Table LocalLayout rows info :=
  readLocals_rows.counted_iff info rows

/-- What is made of the contents of an attribute of code. -/
theorem localsIn_accepts (pool : Pool) (name : UInt16) (info : Bytes) :
    Accepts (if pool.utf8? name = some "LocalVariableTable" then
        match decodeLocals info with
        | .ok rows => return ⟨name, info, some rows⟩
        | .error fault => throw (.locals fault)
      else return ⟨name, info, none⟩ : BodyReader CodeAttribute) fun a bs =>
        (a.name = name ∧ a.info = info ∧ Rows pool name info a.locals) ∧ bs = [] := by
  unfold Rows
  split
  · have hrows := decodeLocals_iff info
    cases hdecode : decodeLocals info with
    | ok rows =>
      simp only [hdecode, Except.ok.injEq] at hrows
      refine (Accepts.pure _).congr fun a bs => ?_
      cases a
      simp [← hrows, and_assoc]
    | error fault =>
      simp only [hdecode, reduceCtorEq, false_iff] at hrows
      refine (Accepts.throw _).congr fun a bs => ?_
      simp [hrows]
  · refine (Accepts.pure _).congr fun a bs => ?_
    cases a
    simp [and_assoc]

theorem codeAttribute_accepts (pool : Pool) : Accepts (codeAttribute pool) (CodeAttributeLayout pool) := by
  refine (framed_accepts word16_accepts word32_accepts take_accepts (localsIn_accepts pool)).congr fun a bs => ?_
  constructor
  · rintro ⟨name, info, hframe, rfl, rfl, hlocals⟩
    exact ⟨hframe, hlocals⟩
  · rintro ⟨hframe, hlocals⟩
    exact ⟨a.name, a.info, hframe, rfl, rfl, hlocals⟩

theorem codeAttributes_eq (pool : Pool) (n : Nat) :
    codeAttributes pool n = (List.replicate n ()).mapM fun _ => codeAttribute pool := by
  induction n with
  | zero => rfl
  | succ n ih =>
    rw [codeAttributes, ih, List.replicate_succ, List.mapM_cons]

theorem code_accepts (pool : Pool) : Accepts (code pool) (CodeLayout pool) := by
  have hattributes : ∀ n, Accepts (codeAttributes pool n) fun as bs =>
      as.length = n ∧ Sequence (CodeAttributeLayout pool) as bs := by
    intro n
    rw [codeAttributes_eq]
    simpa using Accepts.mapM (fun _ => codeAttribute_accepts pool) (List.replicate n ())
  refine (word16_accepts.bind fun maxStack => word16_accepts.bind fun maxLocals =>
    word32_accepts.bind fun length => (take_accepts length.toNat).bind fun code =>
    word16_accepts.bind fun rows => (take_accepts (rows.toNat * 8)).bind fun handlers =>
    word16_accepts.bind fun count => (hattributes count.toNat).bind fun attributes =>
    Accepts.pure (Code.mk maxStack maxLocals code (readHandlers handlers) attributes)).congr fun c bs => ?_
  constructor
  · rintro ⟨maxStack, _, _, rfl, rfl, maxLocals, _, _, rfl, rfl, length, _, _, rfl, rfl, code, _, _, rfl,
      ⟨rfl, hcode⟩, rows, _, _, rfl, rfl, handlers, _, _, rfl, ⟨rfl, hhandlers⟩, count, _, _, rfl, rfl,
      attributes, _, _, rfl, ⟨hcount, hattributes⟩, rfl, rfl⟩
    obtain ⟨hrows, hsequence⟩ := (readHandlers_rows.read_iff _ _ _).1 ⟨hhandlers, rfl⟩
    exact ⟨length, _, _, hcode, by simp, ⟨rows, _, rfl, hrows, hsequence⟩, ⟨count, _, rfl, hcount, hattributes⟩⟩
  · rintro ⟨length, _, _, hcode, rfl, ⟨rows, handlers, rfl, hrows, hsequence⟩,
      ⟨count, attributes, rfl, hcount, hattributes⟩⟩
    obtain ⟨hhandlers, hread⟩ := (readHandlers_rows.read_iff _ _ _).2 ⟨hrows, hsequence⟩
    exact ⟨c.maxStack, _, _, by simp only [List.append_assoc], rfl, c.maxLocals, _, _, rfl, rfl, length, _, _, rfl,
      rfl, c.code, _, _, rfl, ⟨rfl, hcode⟩, rows, _, _, rfl, rfl, handlers, _, _, rfl, ⟨rfl, hhandlers⟩, count, _,
      attributes, rfl, rfl, c.attributes, attributes, [], by simp, ⟨hcount, hattributes⟩, by rw [hread], rfl⟩

end BodyReader

theorem decodeCode_iff (pool : Pool) (info : Bytes) (c : Code) :
    decodeCode pool info = .ok c ↔ CodeLayout pool c info := by
  have haccepts := BodyReader.code_accepts pool info c
  have hwhole : BodyReader.code pool info = .ok (c, []) ↔ CodeLayout pool c info := by
    rw [haccepts]
    constructor
    · rintro ⟨front, rest, hinfo, rfl, h⟩
      rw [show info = front from hinfo.trans (List.append_nil front)]
      exact h
    · intro h
      exact ⟨info, [], (List.append_nil info).symm, rfl, h⟩
  rw [← hwhole]
  unfold decodeCode
  split
  · simp_all
  · rename_i hne heq
    rw [heq]
    constructor
    · intro h
      cases h
    · intro h
      cases h
      exact absurd rfl hne
  · simp_all

theorem BodyLayout.name_mem {pool : Pool} {name : String} {body : Body} {info : Bytes}
    (h : BodyLayout pool name body info) : name ∈ readNames := by
  cases h <;> simp [readNames]

namespace BodyKind

theorem ofName?_eq_some {s : String} {kind : BodyKind} : ofName? s = some kind ↔ s = kind.name := by
  constructor
  · intro h
    exact (by simpa using List.find?_some h : kind.name = s).symm
  · rintro rfl
    cases kind <;> rfl

theorem ofName?_eq_none {s : String} : ofName? s = none ↔ s ∉ readNames := by
  simp [ofName?, readNames, name, @eq_comm _ _ s]

theorem exceptions_iff (info : Bytes) (classes : List Index) :
    decodeExceptions info = .ok classes ↔ Table IndexLayout classes info :=
  readIndices_rows.counted_iff info classes

theorem parameters_iff (info : Bytes) (rows : List Parameter) :
    decodeParameters info = .ok rows ↔
      ∃ (count : UInt8) (xs : Bytes), info = count :: xs ∧ rows.length = count.toNat ∧
        Sequence ParameterLayout rows xs := by
  cases info with
  | nil => simp [decodeParameters]
  | cons n xs =>
    have hread := readParameters_rows.read_iff n.toNat xs rows
    simp only [decodeParameters]
    constructor
    · intro h
      split at h
      · rename_i hlen
        exact ⟨n, xs, rfl, hread.1 ⟨hlen, Except.ok.inj h⟩⟩
      · cases h
    · rintro ⟨count, ys, hxs, hrows⟩
      obtain ⟨rfl, rfl⟩ := List.cons.inj hxs
      obtain ⟨hlen, heq⟩ := hread.2 hrows
      rw [if_pos hlen, heq]

theorem sourceFile_iff (info : Bytes) (i : Index) : decodeSourceFile info = .ok i ↔ info = of16 i := by
  unfold decodeSourceFile
  split
  · rename_i a b
    rw [Except.ok.injEq]
    constructor
    · rintro rfl
      exact (of16_word16 a b).symm
    · intro h
      rw [← of16_word16 a b] at h
      exact of16_injective h
  · rename_i hshape
    constructor
    · intro h
      cases h
    · rintro rfl
      exact absurd rfl (hshape _ _)

/-- Contents are read when the bytes spell them, and they are what the bytes spell. -/
theorem decode_iff (pool : Pool) (info : Bytes) (kind : BodyKind) (body : Body) :
    kind.decode pool info = .ok body ↔ BodyLayout pool kind.name body info := by
  cases kind with
  | code =>
    simp only [decode, map_eq_ok, decodeCode_iff]
    constructor
    · rintro ⟨c, hc, rfl⟩
      exact .code hc
    · generalize hn : name .code = n
      intro h
      cases h with
      | code hc => exact ⟨_, hc, rfl⟩
      | _ => simp [name] at hn
  | sourceFile =>
    simp only [decode, map_eq_ok, mapError_eq_ok, sourceFile_iff]
    constructor
    · rintro ⟨i, rfl, rfl⟩
      exact .sourceFile i
    · generalize hn : name .sourceFile = n
      intro h
      cases h with
      | sourceFile i => exact ⟨i, rfl, rfl⟩
      | _ => simp [name] at hn
  | exceptions =>
    simp only [decode, map_eq_ok, mapError_eq_ok, exceptions_iff]
    constructor
    · rintro ⟨classes, h, rfl⟩
      exact .exceptions h
    · generalize hn : name .exceptions = n
      intro h
      cases h with
      | exceptions h => exact ⟨_, h, rfl⟩
      | _ => simp [name] at hn
  | parameters =>
    simp only [decode, map_eq_ok, mapError_eq_ok, parameters_iff]
    constructor
    · rintro ⟨rows, ⟨count, xs, rfl, hlen, hrows⟩, rfl⟩
      exact .parameters count hlen hrows
    · generalize hn : name .parameters = n
      intro h
      cases h with
      | parameters count hlen hrows => exact ⟨_, ⟨count, _, rfl, hlen, hrows⟩, rfl⟩
      | _ => simp [name] at hn

end BodyKind

/-- Without a name that is read, an attribute has no contents. -/
theorem contents_none {pool : Pool} {name : Index} {info : Bytes} {body : Option Body}
    (h : (pool.utf8? name).bind BodyKind.ofName? = none) : Contents pool name info body ↔ body = none := by
  have hnot : ∀ text, pool.utf8? name = some text → text ∉ readNames := by
    intro text ht
    rw [ht, Option.bind_some] at h
    exact BodyKind.ofName?_eq_none.1 h
  constructor
  · rintro (⟨text, b, ht, _, hb⟩ | ⟨_, hb⟩)
    · exact absurd hb.name_mem (hnot text ht)
    · exact hb
  · intro hb
    exact .inr ⟨hnot, hb⟩

/-- Under a name that is read, an attribute has the contents that are decoded. -/
theorem contents_some {pool : Pool} {name : Index} {info : Bytes} {body : Option Body} {kind : BodyKind}
    (h : (pool.utf8? name).bind BodyKind.ofName? = some kind) :
    Contents pool name info body ↔ ∃ b, body = some b ∧ kind.decode pool info = .ok b := by
  obtain ⟨text, ht, hof⟩ := Option.bind_eq_some_iff.1 h
  obtain rfl := BodyKind.ofName?_eq_some.1 hof
  have hread : kind.name ∈ readNames := by cases kind <;> simp [readNames, BodyKind.name]
  simp only [BodyKind.decode_iff]
  constructor
  · rintro (⟨text, b, ht', hbody, hb⟩ | ⟨hnot, _⟩)
    · obtain rfl := Option.some.inj (ht.symm.trans ht')
      exact ⟨b, hbody, hb⟩
    · exact absurd hread (hnot _ ht)
  · rintro ⟨b, hbody, hb⟩
    exact .inl ⟨_, b, ht, hbody, hb⟩

namespace Reader

/-- What is made of the contents of an attribute. -/
theorem contentsOf_accepts (pool : Pool) (name : UInt16) (info : Bytes) :
    Accepts (match (pool.utf8? name).bind BodyKind.ofName? with
        | none => return ⟨name, info, none⟩
        | some kind =>
          match kind.decode pool info with
          | .ok body => return ⟨name, info, some body⟩
          | .error fault => throw (.body kind fault) : Reader Attribute) fun a bs =>
        (a.name = name ∧ a.info = info ∧ Contents pool name info a.body) ∧ bs = [] := by
  cases hkind : (pool.utf8? name).bind BodyKind.ofName? with
  | none =>
    refine (Accepts.pure _).congr fun a bs => ?_
    rw [contents_none hkind]
    cases a
    simp [and_assoc]
  | some kind =>
    dsimp only
    cases hdecode : kind.decode pool info with
    | ok body =>
      refine (Accepts.pure _).congr fun a bs => ?_
      rw [contents_some hkind, hdecode]
      cases a
      simp [and_assoc]
    | error fault =>
      refine (Accepts.throw _).congr fun a bs => ?_
      rw [contents_some hkind, hdecode]
      simp

theorem attributeOf_accepts (pool : Pool) : Accepts (attributeOf pool) (AttributeLayout pool) := by
  refine (framed_accepts (word16_accepts _) (word32_accepts _) (take_accepts _) (contentsOf_accepts pool)).congr
    fun a bs => ?_
  constructor
  · rintro ⟨name, info, hframe, rfl, rfl, hbody⟩
    exact ⟨hframe, hbody⟩
  · rintro ⟨hframe, hbody⟩
    exact ⟨a.name, a.info, hframe, rfl, rfl, hbody⟩

/-- A count and then that many runs of a step. -/
theorem table_accepts {ε α : Type} {r : StateT Input (Except ε) UInt16} {f : Nat → StateT Input (Except ε) α}
    {G : α → Bytes → Prop} (hr : Accepts r fun w bs => bs = of16 w) (hf : ∀ i, Accepts (f i) G) :
    Accepts (do let count ← r; (List.range count.toNat).mapM f) (Table G) := by
  refine (hr.bind fun count => Accepts.mapM hf (List.range count.toNat)).congr fun as bs => ?_
  constructor
  · rintro ⟨count, _, xs, rfl, rfl, hlen, hs⟩
    exact ⟨count, xs, rfl, by rw [hlen, List.length_range], hs⟩
  · rintro ⟨count, xs, rfl, hlen, hs⟩
    exact ⟨count, _, xs, rfl, rfl, by rw [hlen, List.length_range], hs⟩

theorem attributes_accepts (pool : Pool) : Accepts (attributes pool) (Table (AttributeLayout pool)) :=
  table_accepts (word16_accepts _) fun _ => attributeOf_accepts pool

theorem member_accepts (pool : Pool) : Accepts (member pool) (MemberLayout pool) := by
  refine ((word16_accepts _).bind fun access => (word16_accepts _).bind fun name =>
    (word16_accepts _).bind fun descriptor => (attributes_accepts pool).bind fun attributes =>
    Accepts.pure (Member.mk access name descriptor attributes)).congr fun m bs => ?_
  constructor
  · rintro ⟨access, _, _, rfl, rfl, name, _, _, rfl, rfl, descriptor, _, _, rfl, rfl, attributes, xs, _, rfl, h,
      rfl, rfl⟩
    exact ⟨xs, by simp, h⟩
  · rintro ⟨xs, rfl, h⟩
    exact ⟨m.access, _, _, by simp only [List.append_assoc], rfl, m.name, _, _, rfl, rfl, m.descriptor, _, xs,
      rfl, rfl, m.attributes, xs, [], (List.append_nil xs).symm, h, rfl, rfl⟩

end Reader

end ClassAtlas.ClassFile
