/-!
Constants of a class file and the pool that holds them. A pool is addressed from
one; a `long` or `double` takes two slots, the second of which stays empty.
-/
namespace ClassAtlas.ClassFile

/-- A position in the constant pool. -/
abbrev Index := UInt16

inductive ConstantKind where
  | utf8 | integer | float | long | double | classRef | string
  | fieldref | methodref | interfaceMethodref | nameAndType
  | methodHandle | methodType | dynamic | invokeDynamic | module | package
deriving Repr, DecidableEq

namespace ConstantKind

def all : List ConstantKind :=
  [utf8, integer, float, long, double, classRef, string, fieldref, methodref, interfaceMethodref,
   nameAndType, methodHandle, methodType, dynamic, invokeDynamic, .module, package]

/-- The byte that announces a constant of this kind. -/
def tag : ConstantKind → UInt8
  | utf8 => 1
  | integer => 3
  | float => 4
  | long => 5
  | double => 6
  | classRef => 7
  | string => 8
  | fieldref => 9
  | methodref => 10
  | interfaceMethodref => 11
  | nameAndType => 12
  | methodHandle => 15
  | methodType => 16
  | dynamic => 17
  | invokeDynamic => 18
  | .module => 19
  | package => 20

def ofTag? (t : UInt8) : Option ConstantKind := all.find? (·.tag == t)

def name : ConstantKind → String
  | utf8 => "Utf8"
  | integer => "Integer"
  | float => "Float"
  | long => "Long"
  | double => "Double"
  | classRef => "Class"
  | string => "String"
  | fieldref => "Fieldref"
  | methodref => "Methodref"
  | interfaceMethodref => "InterfaceMethodref"
  | nameAndType => "NameAndType"
  | methodHandle => "MethodHandle"
  | methodType => "MethodType"
  | dynamic => "Dynamic"
  | invokeDynamic => "InvokeDynamic"
  | .module => "Module"
  | package => "Package"

/-- The name of the kind a tag announces, or the tag's number. -/
def tagName (t : UInt8) : String :=
  match ofTag? t with
  | some k => k.name
  | none => "Tag(" ++ toString t.toNat ++ ")"

/-- Whether a constant of this kind takes two slots. -/
def isWide : ConstantKind → Bool
  | long | double => true
  | _ => false

/-- Whether a constant of this kind stands for a field or a method. -/
def isMember : ConstantKind → Bool
  | fieldref | methodref | interfaceMethodref => true
  | _ => false

theorem ofTag?_tag (k : ConstantKind) : ofTag? k.tag = some k := by
  cases k <;> rfl

end ConstantKind

/-- Floating-point constants are kept as bit patterns. -/
inductive Constant where
  | utf8 (value : String)
  | integer (value : Int32)
  | float (bits : UInt32)
  | long (value : Int64)
  | double (bits : UInt64)
  | classRef (name : Index)
  | string (value : Index)
  | fieldref (owner member : Index)
  | methodref (owner member : Index)
  | interfaceMethodref (owner member : Index)
  | nameAndType (name descriptor : Index)
  | methodHandle (action : UInt8) (target : Index)
  | methodType (descriptor : Index)
  | dynamic (bootstrap : UInt16) (member : Index)
  | invokeDynamic (bootstrap : UInt16) (member : Index)
  | module (name : Index)
  | package (name : Index)
deriving Repr, DecidableEq

namespace Constant

def kind : Constant → ConstantKind
  | utf8 _ => .utf8
  | integer _ => .integer
  | float _ => .float
  | long _ => .long
  | double _ => .double
  | classRef _ => .classRef
  | string _ => .string
  | fieldref .. => .fieldref
  | methodref .. => .methodref
  | interfaceMethodref .. => .interfaceMethodref
  | nameAndType .. => .nameAndType
  | methodHandle .. => .methodHandle
  | methodType _ => .methodType
  | dynamic .. => .dynamic
  | invokeDynamic .. => .invokeDynamic
  | .module _ => .module
  | package _ => .package

end Constant

/-- What a method handle does to its target, in the words of the instruction set. -/
def handleAction (action : UInt8) : String :=
  match action.toNat with
  | 1 => "getfield"
  | 2 => "getstatic"
  | 3 => "putfield"
  | 4 => "putstatic"
  | 5 => "invokevirtual"
  | 6 => "invokestatic"
  | 7 => "invokespecial"
  | 8 => "newinvokespecial"
  | 9 => "invokeinterface"
  | n => "handle(" ++ toString n ++ ")"

/-- Slot `i` of the array is index `i + 1` of the pool. -/
structure Pool where
  slots : Array (Option Constant)
deriving Repr, DecidableEq

namespace Pool

def empty : Pool := ⟨#[]⟩

/-- One more than the number of slots: the first index past the pool. -/
def count (p : Pool) : Nat := p.slots.size + 1

/-- The constant at an index, if the index is in range and its slot is not empty. -/
def get? (p : Pool) (i : Index) : Option Constant :=
  if i = 0 then none else p.slots[i.toNat - 1]?.join

def utf8? (p : Pool) (i : Index) : Option String :=
  match p.get? i with
  | some (.utf8 value) => some value
  | _ => none

/-- The name held by a class constant. -/
def className? (p : Pool) (i : Index) : Option String :=
  match p.get? i with
  | some (.classRef name) => p.utf8? name
  | _ => none

end Pool
end ClassAtlas.ClassFile
