import ClassAtlas.Archive.PrefixCode
import ClassAtlas.Bytes

/-!
Reading deflated data. Bits come from the low end of each byte; a block is stored, or
coded by a fixed code, or by codes that it brings along. Literals and repetitions of
earlier output make up the result.

A byte is taken from the input only when its bits are asked for, and a fault tells how
many bytes had been taken. A fault keeps the output so far.
-/
namespace ClassAtlas.Archive.Inflate

inductive Fault where
  | truncated
  | corrupt (offset : Nat)
  | overlong
deriving Repr, DecidableEq

/-- `bits` holds the `count` bits that were taken and not yet used. -/
structure State where
  input : Array UInt8
  position : Nat
  bits : Nat
  count : Nat
  output : Array UInt8

/-- A step of reading, which keeps the state when it fails. -/
abbrev Reading := ExceptT Fault (StateM State)

def corrupt : Reading α := do throw (.corrupt (← get).position)

/-- Takes one more byte. -/
def takeByte : Reading Unit := do
  let s ← get
  match s.input[s.position]? with
  | some b => set { s with
      position := s.position + 1
      bits := s.bits + b.toNat * Nat.pow 2 s.count
      count := s.count + 8 }
  | none => throw .truncated

/-- Takes bytes until `n` bits are there; `fuel` bytes are enough for any number asked for. -/
def need (n : Nat) : (fuel : Nat) → Reading Unit
  | 0 => return
  | fuel + 1 => do
    if (← get).count < n then
      takeByte
      need n fuel

/-- Uses the lowest `n` bits up. -/
def drop (n : Nat) : Reading Unit :=
  modify fun s => { s with bits := s.bits / Nat.pow 2 n, count := s.count - n }

/-- The next `n` bits as a number. -/
def number (n : Nat) : Reading Nat := do
  need n 4
  let value := (← get).bits % Nat.pow 2 n
  drop n
  return value

/-- Looks the word up among the bits at hand, as if zeros followed, and asks for more
bits when the word found is longer than they are. -/
def symbolLoop (code : PrefixCode) (n : Nat) : (fuel : Nat) → Reading Nat
  | 0 => corrupt
  | fuel + 1 => do
    need n 4
    let s ← get
    match code.tree.find? s.bits with
    | none => corrupt
    | some (symbol, length) =>
      if length ≤ s.count then
        drop length
        return symbol
      else symbolLoop code length fuel

def symbol (code : PrefixCode) : Reading Nat := symbolLoop code code.least 16

/-! ### Codes that a block brings along -/

/-- The order in which the lengths of the length code are given. -/
def lengthOrder : List Nat := [16, 17, 18, 0, 8, 7, 9, 6, 10, 5, 11, 4, 12, 3, 13, 2, 14, 1, 15]

/-- Lengths of words, some of them given as repetitions; `done` comes last first. -/
def lengthsLoop (code : PrefixCode) (n : Nat) : (fuel : Nat) → (done : List Nat) → Reading (List Nat)
  | 0, done => return done.reverse
  | fuel + 1, done => do
    if n ≤ done.length then return done.reverse
    let x ← symbol code
    if x < 16 then lengthsLoop code n fuel (x :: done)
    else
      if x = 16 ∧ done.isEmpty then corrupt
      let (least, width, length) := match x with
        | 16 => (3, 2, done.headD 0)
        | 17 => (3, 3, 0)
        | _ => (11, 7, 0)
      let times := least + (← number width)
      if n < done.length + times then corrupt
      lengthsLoop code n fuel (List.replicate times length ++ done)

/-- The codes of a block: literals and lengths, and distances. The first has its end
mark's length as the number of bits to start from. -/
def readCodes : Reading (PrefixCode × PrefixCode) := do
  need 14 4
  let s ← get
  let literals := s.bits % 32 + 257
  if 286 < literals then corrupt
  let distances := s.bits / 32 % 32 + 1
  if 30 < distances then corrupt
  let given := s.bits / 1024 % 16 + 4
  drop 14
  let sizes ← (List.range given).mapM fun _ => number 3
  let placed := lengthOrder.zip sizes
  let lengthLengths := (List.range 19).map fun i => (placed.lookup i).getD 0
  match PrefixCode.ofLengths? lengthLengths with
  | none => corrupt
  | some code =>
    let lengths ← lengthsLoop code (literals + distances) (literals + distances) []
    let first := lengths.take literals
    match PrefixCode.ofLengths? first, PrefixCode.ofLengths? (lengths.drop literals) with
    | some a, some b => return ({ a with least := max a.least (first.getD 256 0) }, b)
    | _, _ => corrupt

/-- The lengths of the fixed code. -/
def fixedLengths : List Nat :=
  List.replicate 144 8 ++ List.replicate 112 9 ++ List.replicate 24 7 ++ List.replicate 8 8

def fixedCode : PrefixCode := (PrefixCode.ofLengths? fixedLengths).getD ⟨.bare, 0⟩

/-! ### Output -/

def emit (limit : Nat) (b : UInt8) : Reading Unit := do
  modify fun s => { s with output := s.output.push b }
  if limit < (← get).output.size then throw .overlong

/-- Repeats `n` bytes of the output from `distance` back. -/
def repeatBack (distance : Nat) : Nat → Array UInt8 → Array UInt8
  | 0, out => out
  | n + 1, out => repeatBack distance n (out.push (out.getD (out.size - distance) 0))

/-- The least length and the number of further bits of a symbol for a repetition. -/
def lengthOf? (symbol : Nat) : Option (Nat × Nat) :=
  if symbol < 265 then some (symbol - 254, 0)
  else if symbol < 269 then some (symbol * 2 - 519, 1)
  else if symbol < 273 then some (symbol * 4 - 1057, 2)
  else if symbol < 277 then some (symbol * 8 - 2149, 3)
  else if symbol < 281 then some (symbol * 16 - 4365, 4)
  else if symbol < 285 then some (symbol * 32 - 8861, 5)
  else if symbol < 286 then some (258, 0)
  else none

/-- The distance symbol of a fixed block: five bits, the highest first. -/
def fixedDistance : Reading Nat := do
  let n ← number 5
  return n % 2 * 16 + n / 2 % 2 * 8 + n / 4 % 2 * 4 + n / 8 % 2 * 2 + n / 16 % 2

/-- The distance that a symbol stands for, with its further bits. -/
def distanceOf (symbol : Nat) : Reading Nat := do
  if symbol < 4 then return symbol + 1
  else if symbol < 30 then
    let width := (symbol - 2) / 2
    let rest ← number width
    return Nat.pow 2 (width + 1) + 1 + (symbol % 2 * Nat.pow 2 width + rest)
  else corrupt

/-- How far back a repetition may reach. -/
def window : Nat := 32768

/-- The symbols of a coded block up to its end mark. -/
def codedLoop (limit : Nat) (literals : PrefixCode) (distances : Option PrefixCode) : (fuel : Nat) → Reading Unit
  | 0 => throw .truncated
  | fuel + 1 => do
    let x ← symbol literals
    if x < 256 then
      emit limit (UInt8.ofNat x)
      codedLoop limit literals distances fuel
    else if x = 256 then return
    else match lengthOf? x with
      | none => corrupt
      | some (least, width) =>
        let length := least + (← number width)
        let distance ← distanceOf (← match distances with
          | some code => symbol code
          | none => fixedDistance)
        if min window (← get).output.size < distance then corrupt
        modify fun s => { s with output := repeatBack distance length s.output }
        if limit < (← get).output.size then throw .overlong
        codedLoop limit literals distances fuel

/-- The next byte of the input, past any bits at hand. -/
def rawByte : Reading UInt8 := do
  let s ← get
  match s.input[s.position]? with
  | some b =>
    set { s with position := s.position + 1 }
    return b
  | none => throw .truncated

/-- A stored block: its length, the complement of it, and that many bytes. -/
def stored (limit : Nat) : Reading Unit := do
  modify fun s => { s with bits := 0, count := 0 }
  let a ← rawByte
  let b ← rawByte
  let c ← rawByte
  let d ← rawByte
  let length := a.toNat + b.toNat * 256
  if length + (c.toNat + d.toNat * 256) ≠ 65535 then corrupt
  (List.range length).forM fun _ => do emit limit (← rawByte)

/-! ### Blocks -/

/-- One block. The result tells whether it is the last. Each symbol of a coded block
uses a bit up, so as many symbols as there are bits are enough. -/
def block (limit : Nat) : Reading Bool := do
  need 3 4
  let header := (← get).bits % 8
  drop 3
  let fuel := (← get).input.size * 8 + 1
  match header / 2 with
  | 0 => stored limit
  | 1 => codedLoop limit fixedCode none fuel
  | 2 =>
    let (literals, distances) ← readCodes
    codedLoop limit literals (some distances) fuel
  | _ => corrupt
  return header % 2 = 1

def blocks (limit : Nat) : (fuel : Nat) → Reading Unit
  | 0 => throw .truncated
  | fuel + 1 => do
    unless ← block limit do blocks limit fuel

/-- Inflates data that should give at most `limit` bytes. -/
def inflate (limit : Nat) (input : Array UInt8) : Except Fault Bytes :=
  let (r, s) := (blocks limit (input.size * 8 + 1)).run.run ⟨input, 0, 0, 0, #[]⟩
  match r with
  | .ok () => .ok s.output.toList
  | .error fault => .error fault

end ClassAtlas.Archive.Inflate
