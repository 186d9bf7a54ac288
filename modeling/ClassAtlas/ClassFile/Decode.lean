import ClassAtlas.ClassFile.Failure
import ClassAtlas.Text.ModifiedUtf8

/-!
Reading a class file. The input is a sequence of bytes and the way it ends; each
step takes bytes from its front. Bytes after the last attribute are left unread,
and reading them is never needed to tell a class from a failure.
-/
namespace ClassAtlas.ClassFile

/-- What follows the last byte of an input. -/
inductive Ending where
  | finished
  | failing (error : Error)
deriving Repr, DecidableEq

/-- Why a step that needs more than there is fails. An error that only says that the input ended
is the same as an end. -/
def Ending.cause (e : Ending) (site : Site) : Cause :=
  match e with
  | finished => .truncated site
  | failing error => if error.isEnd then .truncated site else .broken site error

structure Input where
  bytes : Bytes
  ending : Ending
deriving Repr, DecidableEq

/-- A step that takes bytes from the front of the input. -/
abbrev Reader := StateT Input (Except Cause)

namespace Reader

def byte (site : Site) : Reader UInt8 := fun s =>
  match s.bytes with
  | a :: rest => .ok (a, { s with bytes := rest })
  | _ => .error (s.ending.cause site)

def word16 (site : Site) : Reader UInt16 := fun s =>
  match s.bytes with
  | a :: b :: rest => .ok (Bytes.word16 a b, { s with bytes := rest })
  | _ => .error (s.ending.cause site)

def word32 (site : Site) : Reader UInt32 := fun s =>
  match s.bytes with
  | a :: b :: c :: d :: rest => .ok (Bytes.word32 a b c d, { s with bytes := rest })
  | _ => .error (s.ending.cause site)

/-- The next `n` bytes. -/
def take (site : Site) (n : Nat) : Reader Bytes := fun s =>
  if n = 0 || !(s.bytes.drop (n - 1)).isEmpty then
    .ok (s.bytes.take n, { s with bytes := s.bytes.drop n })
  else .error (s.ending.cause site)

/-- The outcomes of `n` runs of a step that is told the number of its run. -/
def times (n : Nat) (step : Nat → Reader α) : Reader (List α) := (List.range n).mapM step

/-! ### Constants -/

def constantBody (kind : ConstantKind) : Reader Constant :=
  let site := Site.constant kind
  match kind with
  | .utf8 => do
    let length ← word16 site
    let bytes ← take site length.toNat
    return .utf8 (Text.ModifiedUtf8.decode bytes)
  | .integer => do return .integer (← word32 site).toInt32
  | .float => do return .float (← word32 site)
  | .long => do
    let high ← word32 site
    let low ← word32 site
    return .long (Bytes.word64 high low).toInt64
  | .double => do
    let high ← word32 site
    let low ← word32 site
    return .double (Bytes.word64 high low)
  | .classRef => do return .classRef (← word16 site)
  | .string => do return .string (← word16 site)
  | .fieldref => do
    let owner ← word16 site
    return .fieldref owner (← word16 site)
  | .methodref => do
    let owner ← word16 site
    return .methodref owner (← word16 site)
  | .interfaceMethodref => do
    let owner ← word16 site
    return .interfaceMethodref owner (← word16 site)
  | .nameAndType => do
    let name ← word16 site
    return .nameAndType name (← word16 site)
  | .methodHandle => do
    let action ← byte site
    return .methodHandle action (← word16 site)
  | .methodType => do return .methodType (← word16 site)
  | .dynamic => do
    let bootstrap ← word16 site
    return .dynamic bootstrap (← word16 site)
  | .invokeDynamic => do
    let bootstrap ← word16 site
    return .invokeDynamic bootstrap (← word16 site)
  | .module => do return .module (← word16 site)
  | .package => do return .package (← word16 site)

def constant : Reader Constant := do
  let tag ← byte .constantTag
  match ConstantKind.ofTag? tag with
  | some kind => constantBody kind
  | none => throw (.unknownTag tag)

/-! ### Attributes and members -/

/-- An attribute, with its contents when its name is one that is read. -/
def attributeOf (pool : Pool) : Reader Attribute := do
  let name ← word16 .attributeBody
  let length ← word32 .attributeBody
  let info ← take .attributeBody length.toNat
  match (pool.utf8? name).bind BodyKind.ofName? with
  | none => return ⟨name, info, none⟩
  | some kind =>
    match kind.decode pool info with
    | .ok body => return ⟨name, info, some body⟩
    | .error fault => throw (.body kind fault)

def attributes (pool : Pool) : Reader (List Attribute) := do
  let count ← word16 .attributeCount
  times count.toNat fun _ => attributeOf pool

def member (pool : Pool) : Reader Member := do
  let access ← word16 .memberHeader
  let name ← word16 .memberHeader
  let descriptor ← word16 .memberHeader
  let attributes ← attributes pool
  return ⟨access, name, descriptor, attributes⟩

end Reader

/-! ### The whole file -/

/-- A reader of the whole file, whose failures name their place. -/
abbrev FileReader := StateT Input (Except Failure)

namespace FileReader

/-- A step whose failures arise at the given place. -/
def within (place : Place) (step : Reader α) : FileReader α := fun s => (step s).mapError (⟨place, ·⟩)

/-- Fills `slots` slots from index `index` on. -/
def poolSlots : (slots : Nat) → (index : Nat) → Array (Option Constant) →
    FileReader (Array (Option Constant))
  | 0, _, filled => return filled
  | slots + 1, index, filled => do
    let c ← within (.poolEntry index) Reader.constant
    if c.kind.isWide then
      match slots with
      | 0 => throw ⟨.header, .wideAtEnd c.kind⟩
      | rest + 1 => poolSlots rest (index + 2) ((filled.push (some c)).push none)
    else poolSlots slots (index + 1) (filled.push (some c))

def pool : FileReader Pool := do
  let count ← within .header (Reader.word16 .poolCount)
  if count = 0 then throw ⟨.header, .noPool⟩
  let slots ← poolSlots (count.toNat - 1) 1 #[]
  return ⟨slots⟩

/-- A counted list of members, each read at its own place. -/
def members (site : Site) (place : Nat → Place) (pool : Pool) : FileReader (List Member) := do
  let count ← within .header (Reader.word16 site)
  (List.range count.toNat).mapM fun i => within (place i) (Reader.member pool)

def file : FileReader ClassModel := do
  let magic ← within .header (Reader.word32 .magic)
  if magic ≠ 0xCAFEBABE then throw ⟨.header, .magic magic⟩
  let minor ← within .header (Reader.word16 .version)
  let major ← within .header (Reader.word16 .version)
  let pool ← pool
  let access ← within .header (Reader.word16 .classInfo)
  let this ← within .header (Reader.word16 .classInfo)
  let super ← within .header (Reader.word16 .classInfo)
  let count ← within .header (Reader.word16 .classInfo)
  let interfaces ←
    within .header (Reader.times count.toNat fun _ => Reader.word16 .interfaces)
  let fields ← members .fieldCount .field pool
  let methods ← members .methodCount .method pool
  let attributes ← within .classAttributes (Reader.attributes pool)
  return { minor, major, pool, access, this, super, interfaces, fields, methods, attributes }

end FileReader

/-- Reads a class from the front of an input. The result holds the bytes left over. -/
def decode (input : Input) : Except Failure (ClassModel × Bytes) :=
  (fun r => (r.1, r.2.bytes)) <$> FileReader.file input

end ClassAtlas.ClassFile
