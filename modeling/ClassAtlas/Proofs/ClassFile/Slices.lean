import ClassAtlas.Proofs.ClassFile.Reading

/-! Contents of attributes, read by slices.

Reading takes bytes from the front. The same contents can be read where they stand, by offsets: a check
that the attribute reaches far enough, slices behind it, and a running offset moved past them. In such a
reading a slice may be out of range, which is no failure but no outcome at all (`Slicing`). It never
happens: on every input the reading by slices ends as the reader does, with the same contents or the same
fault (`BodyKind.slice_eq`).

What carries the proof is that each check asks for exactly the bytes that are taken next: a reader refuses
whatever is too short for these (`Needs`), and from a checked offset it goes on as the slices do
(`Follows`). -/
namespace ClassAtlas.ClassFile

variable {α β φ : Type}

/-! ### Slices -/

/-- A reading by slices. It has an outcome, contents or a fault, unless a slice is out of range. -/
abbrev Slicing (φ : Type) := ExceptT φ Option

/-- The bytes from `i` up to `j`, if these are within range. -/
def slice? (info : Bytes) (i j : Nat) : Option Bytes :=
  if i ≤ j ∧ j ≤ info.length then some ((info.take j).drop i) else none

def word16At (info : Bytes) (i : Nat) : Option UInt16 := do
  match ← slice? info i (i + 2) with
  | [a, b] => return Bytes.word16 a b
  | _ => none

def word32At (info : Bytes) (i : Nat) : Option UInt32 := do
  match ← slice? info i (i + 4) with
  | [a, b, c, d] => return Bytes.word32 a b c d
  | _ => none

/-- `n` rows one after the other, each of the given width. -/
def rowsAt (row : Nat → Option α) (width : Nat) : (n : Nat) → (offset : Nat) → Option (List α)
  | 0, _ => return []
  | n + 1, offset => do
    let r ← row offset
    let rs ← rowsAt row width n (offset + width)
    return r :: rs

def localAt (info : Bytes) (i : Nat) : Option Local := do
  let start ← word16At info i
  let length ← word16At info (i + 2)
  let name ← word16At info (i + 4)
  let descriptor ← word16At info (i + 6)
  let slot ← word16At info (i + 8)
  return ⟨start, length, name, descriptor, slot⟩

def handlerAt (info : Bytes) (i : Nat) : Option Handler := do
  let start ← word16At info i
  let stop ← word16At info (i + 2)
  let handler ← word16At info (i + 4)
  let caught ← word16At info (i + 6)
  return ⟨start, stop, handler, caught⟩

def parameterAt (info : Bytes) (i : Nat) : Option Parameter := do
  let name ← word16At info i
  let access ← word16At info (i + 2)
  return ⟨name, access⟩

/-! ### Contents by slices -/

namespace Slicing

def failIf (c : Prop) [Decidable c] (fault : φ) : Slicing φ Unit := if c then throw fault else return

/-- A table that fills its attribute. -/
def table (row : Nat → Option α) (width : Nat) (info : Bytes) : Slicing TableFault (List α) := do
  failIf (info.length < 2) .short
  let count ← word16At info 0
  failIf (info.length ≠ 2 + count.toNat * width) .length
  rowsAt row width count.toNat 2

def parameters (info : Bytes) : Slicing TableFault (List Parameter) := do
  failIf (info.length < 1) .short
  let count ← (info[0]? : Option UInt8)
  failIf (info.length ≠ 1 + count.toNat * 4) .length
  rowsAt (parameterAt info) 4 count.toNat 1

def sourceFile (info : Bytes) : Slicing TableFault Index := do
  failIf (info.length ≠ 2) .length
  word16At info 0

def locals (pool : Pool) (name : Index) (info : Bytes) : Slicing BodyFault (Option (List Local)) :=
  if pool.utf8? name = some "LocalVariableTable" then some <$> (table (localAt info) 10 info).adapt .locals
  else return none

/-- `n` attributes of a code body from an offset on, and the offset behind them. -/
def codeAttributes (pool : Pool) (info : Bytes) : (n : Nat) → (offset : Nat) →
    Slicing BodyFault (List CodeAttribute × Nat)
  | 0, offset => return ([], offset)
  | n + 1, offset => do
    failIf (info.length < offset + 6) (.table .short)
    let name ← word16At info offset
    let length ← word32At info (offset + 2)
    failIf (info.length - (offset + 6) < length.toNat) (.table .short)
    let body ← slice? info (offset + 6) (offset + 6 + length.toNat)
    let rows ← locals pool name body
    let (as, stop) ← codeAttributes pool info n (offset + 6 + length.toNat)
    return (⟨name, body, rows⟩ :: as, stop)

def code (pool : Pool) (info : Bytes) : Slicing BodyFault Code := do
  failIf (info.length < 8) (.table .short)
  let maxStack ← word16At info 0
  let maxLocals ← word16At info 2
  let length ← word32At info 4
  failIf (info.length - 8 < length.toNat) (.table .short)
  let code ← slice? info 8 (8 + length.toNat)
  let offset := 8 + length.toNat
  failIf (info.length < offset + 2) (.table .short)
  let rows ← word16At info offset
  let offset := offset + 2
  failIf (info.length < offset + rows.toNat * 8) (.table .short)
  let handlers ← rowsAt (handlerAt info) 8 rows.toNat offset
  let offset := offset + rows.toNat * 8
  failIf (info.length < offset + 2) (.table .short)
  let count ← word16At info offset
  let (attributes, stop) ← codeAttributes pool info count.toNat (offset + 2)
  failIf (stop ≠ info.length) (.trailing (info.length - stop))
  return ⟨maxStack, maxLocals, code, handlers, attributes⟩

end Slicing

/-- Contents by the name of the attribute, by slices. -/
def BodyKind.slice (pool : Pool) (info : Bytes) : BodyKind → Slicing BodyFault Body
  | code => .code <$> Slicing.code pool info
  | sourceFile => .sourceFile <$> (Slicing.sourceFile info).adapt .table
  | exceptions => .exceptions <$> (Slicing.table (word16At info) 2 info).adapt .table
  | parameters => .parameters <$> (Slicing.parameters info).adapt .table

/-! ### Slices within range -/

theorem slice?_eq {info : Bytes} {i n : Nat} (h : i + n ≤ info.length) :
    slice? info i (i + n) = some ((info.drop i).take n) := by
  rw [slice?, if_pos ⟨Nat.le_add_right i n, h⟩, List.drop_take, Nat.add_sub_cancel_left]

/-- What stands at an offset is within range. -/
theorem add_le_of_drop {info x rest : Bytes} {i : Nat} (hx : x ≠ []) (h : info.drop i = x ++ rest) :
    i + x.length ≤ info.length := by
  have hlen := congrArg List.length h
  rw [List.length_drop, List.length_append] at hlen
  have hpos := List.length_pos_of_ne_nil hx
  omega

theorem word16At_eq {info rest : Bytes} {i : Nat} {a b : UInt8} (h : info.drop i = a :: b :: rest) :
    word16At info i = some (Bytes.word16 a b) := by
  have hlen : i + 2 ≤ info.length := add_le_of_drop (List.cons_ne_nil a [b]) h
  rw [word16At, slice?_eq hlen, h]
  rfl

theorem word32At_eq {info rest : Bytes} {i : Nat} {a b c d : UInt8} (h : info.drop i = a :: b :: c :: d :: rest) :
    word32At info i = some (Bytes.word32 a b c d) := by
  have hlen : i + 4 ≤ info.length := add_le_of_drop (List.cons_ne_nil a [b, c, d]) h
  rw [word32At, slice?_eq hlen, h]
  rfl

/-- A row that is sliced as its bytes spell it. -/
def SlicesRow (info : Bytes) (row : Nat → Option α) (G : α → Bytes → Prop) : Prop :=
  ∀ i a x rest, info.drop i = x ++ rest → G a x → row i = some a

/-- The words of a row stand behind one another. -/
theorem word16At_of_drop {info rest : Bytes} {i : Nat} {w : UInt16} (h : info.drop i = Bytes.of16 w ++ rest) :
    word16At info i = some w ∧ info.drop (i + 2) = rest := by
  constructor
  · rw [word16At_eq h, Bytes.word16_of16]
  · rw [← List.drop_drop, h]
    rfl

theorem word16At_slices (info : Bytes) : SlicesRow info (word16At info) IndexLayout := by
  intro i w x rest h hx
  rw [hx] at h
  exact (word16At_of_drop h).1

theorem localAt_slices (info : Bytes) : SlicesRow info (localAt info) LocalLayout := by
  intro i l x rest h hx
  rw [hx] at h
  simp only [List.append_assoc] at h
  obtain ⟨hstart, h⟩ := word16At_of_drop h
  obtain ⟨hlength, h⟩ := word16At_of_drop h
  obtain ⟨hname, h⟩ := word16At_of_drop h
  obtain ⟨hdescriptor, h⟩ := word16At_of_drop h
  obtain ⟨hslot, -⟩ := word16At_of_drop h
  rw [localAt, hstart, hlength, hname, hdescriptor, hslot]
  rfl

theorem handlerAt_slices (info : Bytes) : SlicesRow info (handlerAt info) HandlerLayout := by
  intro i l x rest h hx
  rw [hx] at h
  simp only [List.append_assoc] at h
  obtain ⟨hstart, h⟩ := word16At_of_drop h
  obtain ⟨hstop, h⟩ := word16At_of_drop h
  obtain ⟨hhandler, h⟩ := word16At_of_drop h
  obtain ⟨hcaught, -⟩ := word16At_of_drop h
  rw [handlerAt, hstart, hstop, hhandler, hcaught]
  rfl

theorem parameterAt_slices (info : Bytes) : SlicesRow info (parameterAt info) ParameterLayout := by
  intro i l x rest h hx
  rw [hx] at h
  simp only [List.append_assoc] at h
  obtain ⟨hname, h⟩ := word16At_of_drop h
  obtain ⟨haccess, -⟩ := word16At_of_drop h
  rw [parameterAt, hname, haccess]
  rfl

/-- Rows within range are those that their bytes are read as. -/
theorem rowsAt_eq {info : Bytes} {row : Nat → Option α} {read : Bytes → List α} {G : α → Bytes → Prop} {width : Nat}
    (hread : ReadsRows read G width) (hrow : SlicesRow info row G) {n offset : Nat}
    (h : offset + n * width ≤ info.length) :
    rowsAt row width n offset = some (read ((info.drop offset).take (n * width))) := by
  have hlen : ((info.drop offset).take (n * width)).length = n * width := by
    rw [List.length_take, List.length_drop]
    omega
  obtain ⟨rows, hrows, hn⟩ := hread.exists_rows n _ hlen
  rw [hread.read_eq hrows]
  have hdrop := (List.take_append_drop (n * width) (info.drop offset)).symm
  generalize (info.drop offset).take (n * width) = front at *
  generalize (info.drop offset).drop (n * width) = rest at hdrop
  clear h hlen
  induction hrows generalizing n offset with
  | nil =>
    subst hn
    rfl
  | @cons a x as xs ha _ ih =>
    subst hn
    rw [List.append_assoc] at hdrop
    have hnext : info.drop (offset + width) = xs ++ rest := by
      rw [← List.drop_drop, hdrop, ← hread.width a x ha, List.drop_left]
    rw [List.length_cons, rowsAt, hrow offset a x _ hdrop ha, ih rfl hnext]
    rfl

/-! ### A reader and the slices that follow it -/

/-- A reader that refuses whatever is shorter than `n` bytes. -/
def Needs (n : Nat) (r : BodyReader α) : Prop := ∀ bs : Bytes, bs.length < n → r bs = .error (.table .short)

theorem Needs.zero (r : BodyReader α) : Needs 0 r := fun _ h => absurd h (Nat.not_lt_zero _)

theorem Needs.word16 {n : Nat} {g : UInt16 → BodyReader α} (hg : ∀ w, Needs n (g w)) :
    Needs (2 + n) (BodyReader.word16 >>= g) := by
  intro bs h
  match bs with
  | [] | [_] => rfl
  | a :: b :: rest =>
    rw [List.length_cons, List.length_cons] at h
    exact hg _ rest (by omega)

theorem Needs.word32 {n : Nat} {g : UInt32 → BodyReader α} (hg : ∀ w, Needs n (g w)) :
    Needs (4 + n) (BodyReader.word32 >>= g) := by
  intro bs h
  match bs with
  | [] | [_] | [_, _] | [_, _, _] => rfl
  | a :: b :: c :: d :: rest =>
    rw [List.length_cons, List.length_cons, List.length_cons, List.length_cons] at h
    exact hg _ rest (by omega)

theorem Needs.take (n : Nat) (g : Bytes → BodyReader α) : Needs n (BodyReader.take n >>= g) := by
  intro bs h
  show (BodyReader.take n bs >>= fun p => g p.1 p.2) = _
  rw [BodyReader.take, if_neg (Nat.not_le.2 h)]
  rfl

/-- Bytes within range and what stands behind them. -/
theorem exists_drop_eq {info : Bytes} {i n : Nat} (h : i + n ≤ info.length) :
    ∃ x, x.length = n ∧ info.drop i = x ++ info.drop (i + n) := by
  refine ⟨(info.drop i).take n, ?_, ?_⟩
  · rw [List.length_take, List.length_drop]
    omega
  · rw [← List.drop_drop, List.take_append_drop]

/-- From an offset on, slices end as a reader of what stands there does. -/
def Follows (info : Bytes) (offset : Nat) (x : Slicing BodyFault α) (r : BodyReader α) : Prop :=
  x.run = some (r.run' (info.drop offset))

namespace Follows

variable {info : Bytes} {offset : Nat}

theorem failIf {n : Nat} {c : Prop} [Decidable c] {f : Unit → Slicing BodyFault α} {r : BodyReader α}
    (hoffset : offset ≤ info.length) (hc : c ↔ info.length < offset + n) (hneeds : Needs n r)
    (h : offset + n ≤ info.length → Follows info offset (f ()) r) :
    Follows info offset (Slicing.failIf c (.table .short) >>= f) r := by
  by_cases hlen : info.length < offset + n
  · have hshort := hneeds (info.drop offset) (by rw [List.length_drop]; omega)
    rw [Slicing.failIf, if_pos (hc.2 hlen), Follows, StateT.run', hshort]
    rfl
  · rw [Slicing.failIf, if_neg (mt hc.1 hlen)]
    exact h (Nat.le_of_not_lt hlen)

theorem word16 {f : UInt16 → Slicing BodyFault α} {g : UInt16 → BodyReader α} (h : offset + 2 ≤ info.length)
    (hf : ∀ w, Follows info (offset + 2) (f w) (g w)) :
    Follows info offset (liftM (word16At info offset) >>= f) (BodyReader.word16 >>= g) := by
  obtain ⟨x, hx, hdrop⟩ := exists_drop_eq h
  obtain ⟨a, b, rfl⟩ := eq_pair hx
  have hw := hf (Bytes.word16 a b)
  rw [Follows] at hw ⊢
  rw [word16At_eq hdrop, hdrop]
  exact hw

theorem word32 {f : UInt32 → Slicing BodyFault α} {g : UInt32 → BodyReader α} (h : offset + 4 ≤ info.length)
    (hf : ∀ w, Follows info (offset + 4) (f w) (g w)) :
    Follows info offset (liftM (word32At info offset) >>= f) (BodyReader.word32 >>= g) := by
  obtain ⟨x, hx, hdrop⟩ := exists_drop_eq h
  obtain ⟨a, b, c, d, rfl⟩ := eq_four hx
  have hw := hf (Bytes.word32 a b c d)
  rw [Follows] at hw ⊢
  rw [word32At_eq hdrop, hdrop]
  exact hw

/-- Bytes that are taken, and what is sliced from where they stand. -/
theorem take {x : Option β} (make : Bytes → β) {f : β → Slicing BodyFault α} {g : Bytes → BodyReader α} {n : Nat}
    (h : offset + n ≤ info.length) (hx : x = some (make ((info.drop offset).take n)))
    (hf : ∀ bs, Follows info (offset + n) (f (make bs)) (g bs)) :
    Follows info offset (liftM x >>= f) (BodyReader.take n >>= g) := by
  have hread : BodyReader.take n (info.drop offset) = .ok ((info.drop offset).take n, info.drop (offset + n)) := by
    rw [BodyReader.take, if_pos (by rw [List.length_drop]; omega), List.drop_drop]
  have hbs := hf ((info.drop offset).take n)
  rw [Follows] at hbs ⊢
  rw [hx]
  refine hbs.trans ?_
  show _ = some (Prod.fst <$> (BodyReader.take n (info.drop offset) >>= fun p => g p.1 p.2))
  rw [hread]
  rfl

end Follows

/-! ### Tables by slices -/

namespace Slicing

theorem failIf_of {c : Prop} [Decidable c] {fault : φ} (f : Unit → Slicing φ α) (h : c) :
    (failIf c fault >>= f).run = some (.error fault) := by
  rw [failIf, if_pos h]
  rfl

theorem failIf_of_not {c : Prop} [Decidable c] {fault : φ} (f : Unit → Slicing φ α) (h : ¬ c) :
    (failIf c fault >>= f).run = (f ()).run := by
  rw [failIf, if_neg h]
  rfl

/-- The rows of a table, when they are all there is behind its count. -/
theorem rows_eq {info : Bytes} {row : Nat → Option α} {read : Bytes → List α} {G : α → Bytes → Prop}
    {width n offset : Nat} (hread : ReadsRows read G width) (hrow : SlicesRow info row G)
    (hoffset : offset ≤ info.length) :
    (failIf (info.length ≠ offset + n * width) TableFault.length >>= fun _ =>
      liftM (rowsAt row width n offset)).run =
        some (if (info.drop offset).length = n * width then .ok (read (info.drop offset)) else .error .length) := by
  rw [List.length_drop]
  by_cases h : info.length = offset + n * width
  · have hall : (info.drop offset).take (n * width) = info.drop offset := by
      rw [List.take_of_length_le]
      rw [List.length_drop]
      omega
    rw [failIf_of_not _ (not_not.2 h), if_pos (by omega), rowsAt_eq hread hrow (Nat.le_of_eq h.symm), hall]
    rfl
  · rw [failIf_of _ h, if_neg (by omega)]

/-- A table that fills its attribute is sliced as it is read. -/
theorem table_eq {info : Bytes} {row : Nat → Option α} {read : Bytes → List α} {G : α → Bytes → Prop} {width : Nat}
    (hread : ReadsRows read G width) (hrow : SlicesRow info row G) :
    (table row width info).run = some (read <$> counted width info) := by
  match info with
  | [] | [_] => rfl
  | a :: b :: rows =>
    have hcount : word16At (a :: b :: rows) 0 = some (Bytes.word16 a b) := word16At_eq rfl
    rw [table, failIf_of_not _ (by simp), hcount]
    refine (rows_eq hread hrow (by simp)).trans ?_
    rw [counted]
    show some (if rows.length = (Bytes.word16 a b).toNat * width then _ else _) = _
    split <;> rfl

theorem parameters_eq (info : Bytes) : (parameters info).run = some (decodeParameters info) := by
  match info with
  | [] => rfl
  | n :: rows =>
    rw [parameters, failIf_of_not _ (by simp)]
    exact rows_eq readParameters_rows (parameterAt_slices _) (by simp)

theorem sourceFile_eq (info : Bytes) : (sourceFile info).run = some (decodeSourceFile info) := by
  match info with
  | [] | [_] | _ :: _ :: _ :: _ => rfl
  | [a, b] => rfl

theorem run_adapt {ψ : Type} {x : Slicing φ α} {f : φ → ψ} {y : Except φ α} (h : x.run = some y) :
    (x.adapt f).run = some (y.mapError f) := by
  obtain rfl : x = ExceptT.mk (some y) := h
  cases y <;> rfl

theorem run_map {x : Slicing φ α} {f : α → β} {y : Except φ α} (h : x.run = some y) :
    (f <$> x).run = some (f <$> y) := by
  obtain rfl : x = ExceptT.mk (some y) := h
  cases y <;> rfl

end Slicing

/-! ### Code by slices -/

/-- The end of a code body, with nothing left over. -/
def BodyReader.ends (c : Code) : BodyReader Code := fun bs =>
  match bs with
  | [] => .ok (c, [])
  | bs => .error (.trailing bs.length)

theorem decodeCode_eq (pool : Pool) (info : Bytes) :
    decodeCode pool info = (BodyReader.code pool >>= BodyReader.ends).run' info := by
  show _ = Prod.fst <$> (BodyReader.code pool info >>= fun p => BodyReader.ends p.1 p.2)
  unfold decodeCode
  cases BodyReader.code pool info with
  | error fault => rfl
  | ok p =>
    obtain ⟨c, rest⟩ := p
    cases rest <;> rfl

namespace Follows

variable {info : Bytes} {offset : Nat}

/-- What is made of the contents of an attribute of code. -/
theorem locals {pool : Pool} {name : Index} {body : Bytes} {f : Option (List Local) → Slicing BodyFault α}
    {g : CodeAttribute → BodyReader α} (hf : ∀ rows, Follows info offset (f rows) (g ⟨name, body, rows⟩)) :
    Follows info offset (Slicing.locals pool name body >>= f)
      ((if pool.utf8? name = some "LocalVariableTable" then
        match decodeLocals body with
        | .ok rows => return ⟨name, body, some rows⟩
        | .error fault => throw (.locals fault)
      else return ⟨name, body, none⟩) >>= g) := by
  unfold Slicing.locals
  split
  · have htable := Slicing.run_map (f := some) (Slicing.run_adapt (f := BodyFault.locals)
      (Slicing.table_eq readLocals_rows (localAt_slices body)))
    generalize some <$> (Slicing.table (localAt body) 10 body).adapt BodyFault.locals = x at htable
    obtain rfl : x = ExceptT.mk (some _) := htable
    rw [decodeLocals]
    cases readLocals <$> counted 10 body with
    | ok rows => exact hf (some rows)
    | error fault => rfl
  · exact hf none

/-- The offset behind the attributes is within range, so what follows them can go on from there. -/
theorem codeAttributes {pool : Pool} {n : Nat} {f : List CodeAttribute → Nat → Slicing BodyFault α}
    {g : List CodeAttribute → BodyReader α} (hoffset : offset ≤ info.length)
    (hf : ∀ as stop, stop ≤ info.length → Follows info stop (f as stop) (g as)) :
    Follows info offset (Slicing.codeAttributes pool info n offset >>= fun p => f p.1 p.2)
      (BodyReader.codeAttributes pool n >>= g) := by
  induction n generalizing offset f g with
  | zero => exact hf [] offset hoffset
  | succ n ih =>
    rw [Slicing.codeAttributes, BodyReader.codeAttributes, BodyReader.codeAttribute]
    simp only [bind_assoc, pure_bind]
    refine failIf (n := 6) hoffset Iff.rfl (.word16 fun _ => .word32 fun _ => .zero _) fun hframe => ?_
    refine word16 (by omega) fun name => word32 (by omega) fun length => ?_
    show Follows info (offset + 6) _ _
    refine failIf (n := length.toNat) (by omega) (by omega) (.take _ _) fun hbody => ?_
    refine take (fun bs => bs) hbody (slice?_eq hbody) fun body => ?_
    refine locals fun rows => ?_
    exact ih (f := fun as => f (⟨name, body, rows⟩ :: as)) (g := fun as => g (⟨name, body, rows⟩ :: as)) hbody
      fun as stop hstop => hf (⟨name, body, rows⟩ :: as) stop hstop

/-- Nothing is left over when the offset is the length. -/
theorem ends {stop : Nat} (hstop : stop ≤ info.length) (c : Code) :
    Follows info stop (Slicing.failIf (stop ≠ info.length) (.trailing (info.length - stop)) >>= fun _ => pure c)
      (BodyReader.ends c) := by
  by_cases h : stop = info.length
  · have hdrop : info.drop stop = [] := List.drop_eq_nil_of_le (Nat.le_of_eq h.symm)
    rw [Follows, Slicing.failIf_of_not _ (not_not.2 h), hdrop]
    rfl
  · have hlen : 0 < (info.drop stop).length := by
      rw [List.length_drop]
      omega
    obtain ⟨b, bs, hbs⟩ := List.exists_cons_of_length_pos hlen
    rw [Follows, Slicing.failIf_of _ h, ← List.length_drop, hbs]
    rfl

theorem code (pool : Pool) (info : Bytes) :
    Follows info 0 (Slicing.code pool info) (BodyReader.code pool >>= BodyReader.ends) := by
  rw [Slicing.code, BodyReader.code]
  simp only [bind_assoc, pure_bind]
  -- One check covers the three words at the head.
  refine failIf (n := 8) (Nat.zero_le _) (by omega)
    (.word16 fun _ => .word16 fun _ => .word32 fun _ => .zero _) fun hhead => ?_
  refine word16 (by omega) fun maxStack => word16 (by omega) fun maxLocals => word32 (by omega) fun length => ?_
  show Follows info 8 _ _
  refine failIf (n := length.toNat) (by omega) (by omega) (.take _ _) fun hcode => ?_
  refine take (fun bs => bs) hcode (slice?_eq hcode) fun code => ?_
  refine failIf (n := 2) (by omega) Iff.rfl (.word16 fun _ => .zero _) fun hrows => ?_
  refine word16 hrows fun rows => ?_
  -- One check covers all rows, whatever their number.
  refine failIf (n := rows.toNat * 8) hrows Iff.rfl (.take _ _) fun hhandlers => ?_
  refine take readHandlers hhandlers (rowsAt_eq readHandlers_rows (handlerAt_slices info) hhandlers) fun handlers => ?_
  refine failIf (n := 2) hhandlers Iff.rfl (.word16 fun _ => .zero _) fun hcount => ?_
  refine word16 hcount fun count => ?_
  exact codeAttributes (f := fun attributes stop =>
      Slicing.failIf (stop ≠ info.length) (.trailing (info.length - stop)) >>= fun _ =>
        pure (Code.mk maxStack maxLocals code (readHandlers handlers) attributes))
    hcount fun attributes stop hstop => ends hstop _

end Follows

/-- **No slice is out of range, on any bytes**: contents read by slices are those that are decoded, and so are
the faults. -/
theorem BodyKind.slice_eq (pool : Pool) (info : Bytes) (kind : BodyKind) :
    (kind.slice pool info).run = some (kind.decode pool info) := by
  cases kind with
  | code =>
    refine Slicing.run_map ?_
    rw [decodeCode_eq]
    exact Follows.code pool info
  | sourceFile => exact Slicing.run_map (Slicing.run_adapt (Slicing.sourceFile_eq info))
  | exceptions =>
    exact Slicing.run_map (Slicing.run_adapt (Slicing.table_eq readIndices_rows (word16At_slices info)))
  | parameters => exact Slicing.run_map (Slicing.run_adapt (Slicing.parameters_eq info))

end ClassAtlas.ClassFile
