import ClassAtlas.ClassFile.Basic
import ClassAtlas.Error

/-!
Contents of attributes, read from their bytes. A table is a count and exactly that
many rows; a code body is its limits, its instructions, its exception table and
its own attributes, with nothing left over. Which attributes are read is decided
by name alone.
-/
namespace ClassAtlas.ClassFile

/-- Why a counted table cannot be read. -/
inductive TableFault where
  | short
  | length
deriving Repr, DecidableEq

/-- Why the contents of an attribute cannot be read. -/
inductive BodyFault where
  | table (fault : TableFault)
  | trailing (count : Nat)
  | locals (fault : TableFault)
deriving Repr, DecidableEq

def TableFault.error : TableFault → Error
  | short => .text "too short"
  | length => .text "length does not match contents"

/-- An attribute whose contents cannot be read for the given reason, which is quoted. -/
def badAttribute (name : String) (reason : Error) : Error :=
  Sentinel.malformedContainer.saying (name ++ " attribute: " ++ reason.message)

def BodyFault.error : BodyFault → Error
  | table fault => fault.error
  | trailing count => .text (toString count ++ " trailing bytes")
  | locals fault => badAttribute "LocalVariableTable" fault.error

/-! ### Rows -/

def readLocals : Bytes → List Local
  | a :: b :: c :: d :: e :: f :: g :: h :: i :: j :: rest =>
    ⟨Bytes.word16 a b, Bytes.word16 c d, Bytes.word16 e f, Bytes.word16 g h, Bytes.word16 i j⟩ ::
      readLocals rest
  | _ => []

def readIndices : Bytes → List Index
  | a :: b :: rest => Bytes.word16 a b :: readIndices rest
  | _ => []

def readParameters : Bytes → List Parameter
  | a :: b :: c :: d :: rest => ⟨Bytes.word16 a b, Bytes.word16 c d⟩ :: readParameters rest
  | _ => []

def readHandlers : Bytes → List Handler
  | a :: b :: c :: d :: e :: f :: g :: h :: rest =>
    ⟨Bytes.word16 a b, Bytes.word16 c d, Bytes.word16 e f, Bytes.word16 g h⟩ :: readHandlers rest
  | _ => []

/-! ### Tables that fill their attribute -/

/-- The rows behind a two-byte count, when they are exactly `width` bytes each. -/
def counted (width : Nat) : Bytes → Except TableFault Bytes
  | a :: b :: rows =>
    if rows.length = (Bytes.word16 a b).toNat * width then .ok rows else .error .length
  | _ => .error .short

def decodeLocals (info : Bytes) : Except TableFault (List Local) :=
  readLocals <$> counted 10 info

def decodeExceptions (info : Bytes) : Except TableFault (List Index) :=
  readIndices <$> counted 2 info

def decodeParameters : Bytes → Except TableFault (List Parameter)
  | n :: rows => if rows.length = n.toNat * 4 then .ok (readParameters rows) else .error .length
  | [] => .error .short

def decodeSourceFile : Bytes → Except TableFault Index
  | [a, b] => .ok (Bytes.word16 a b)
  | _ => .error .length

/-! ### Code -/

/-- A reader of the bytes of a code body. -/
abbrev BodyReader := StateT Bytes (Except BodyFault)

namespace BodyReader

def word16 : BodyReader UInt16
  | a :: b :: rest => .ok (Bytes.word16 a b, rest)
  | _ => .error (.table .short)

def word32 : BodyReader UInt32
  | a :: b :: c :: d :: rest => .ok (Bytes.word32 a b c d, rest)
  | _ => .error (.table .short)

def take (n : Nat) : BodyReader Bytes := fun bs =>
  if n ≤ bs.length then .ok (bs.take n, bs.drop n) else .error (.table .short)

/-- An attribute of a code body; a table of local variables is read at once. -/
def codeAttribute (pool : Pool) : BodyReader CodeAttribute := do
  let name ← word16
  let length ← word32
  let info ← take length.toNat
  if pool.utf8? name = some "LocalVariableTable" then
    match decodeLocals info with
    | .ok rows => return ⟨name, info, some rows⟩
    | .error fault => throw (.locals fault)
  else
    return ⟨name, info, none⟩

/-- `n` attributes, one after the other. -/
def codeAttributes (pool : Pool) : Nat → BodyReader (List CodeAttribute)
  | 0 => return []
  | n + 1 => do
    let a ← codeAttribute pool
    let as ← codeAttributes pool n
    return a :: as

def code (pool : Pool) : BodyReader Code := do
  let maxStack ← word16
  let maxLocals ← word16
  let length ← word32
  let code ← take length.toNat
  let rows ← word16
  let handlers ← take (rows.toNat * 8)
  let count ← word16
  let attributes ← codeAttributes pool count.toNat
  return ⟨maxStack, maxLocals, code, readHandlers handlers, attributes⟩

end BodyReader

def decodeCode (pool : Pool) (info : Bytes) : Except BodyFault Code :=
  match BodyReader.code pool info with
  | .ok (code, []) => .ok code
  | .ok (_, rest) => .error (.trailing rest.length)
  | .error fault => .error fault

/-! ### By name -/

/-- The attributes of classes, fields and methods whose contents are read. -/
inductive BodyKind where
  | code | sourceFile | exceptions | parameters
deriving Repr, DecidableEq

namespace BodyKind

def name : BodyKind → String
  | code => "Code"
  | sourceFile => "SourceFile"
  | exceptions => "Exceptions"
  | parameters => "MethodParameters"

def ofName? (s : String) : Option BodyKind :=
  [code, sourceFile, exceptions, parameters].find? (·.name == s)

def decode (pool : Pool) (info : Bytes) : BodyKind → Except BodyFault Body
  | code => .code <$> decodeCode pool info
  | sourceFile => .sourceFile <$> (decodeSourceFile info).mapError .table
  | exceptions => .exceptions <$> (decodeExceptions info).mapError .table
  | parameters => .parameters <$> (decodeParameters info).mapError .table

end BodyKind
end ClassAtlas.ClassFile
