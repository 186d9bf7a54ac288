import ClassAtlas.ClassFile.Basic
import ClassAtlas.Text.Utf8

/-!
Class files under construction. A draft hands out pool indices as constants are
added; a text used twice takes one slot. Counts and indices are words of the file
format and wrap as such, so a draft can always be written down (`Draft.encode`),
though the file of an overfull draft need not read back.
-/
namespace ClassAtlas.ClassFile

/-! ### Constants on file -/

namespace Constant

/-- Text as the draft writes it: plain UTF-8 behind the low 16 bits of its length. -/
def encodeText (s : String) : Bytes :=
  let bytes := Text.Utf8.encode s
  Bytes.of16 (UInt16.ofNat bytes.length) ++ bytes

/-- The bytes behind the tag. -/
def payload : Constant → Bytes
  | utf8 value => encodeText value
  | integer value => Bytes.of32 value.toUInt32
  | float bits => Bytes.of32 bits
  | long value => Bytes.of64 value.toUInt64
  | double bits => Bytes.of64 bits
  | classRef name => Bytes.of16 name
  | string value => Bytes.of16 value
  | fieldref owner member => Bytes.of16 owner ++ Bytes.of16 member
  | methodref owner member => Bytes.of16 owner ++ Bytes.of16 member
  | interfaceMethodref owner member => Bytes.of16 owner ++ Bytes.of16 member
  | nameAndType name descriptor => Bytes.of16 name ++ Bytes.of16 descriptor
  | methodHandle action target => action :: Bytes.of16 target
  | methodType descriptor => Bytes.of16 descriptor
  | dynamic bootstrap member => Bytes.of16 bootstrap ++ Bytes.of16 member
  | invokeDynamic bootstrap member => Bytes.of16 bootstrap ++ Bytes.of16 member
  | .module name => Bytes.of16 name
  | package name => Bytes.of16 name

def encode (c : Constant) : Bytes := c.kind.tag :: c.payload

end Constant

namespace Draft

/-- What a draft puts into its pool: a constant, or two indices behind a tag of the
caller's choice. -/
inductive Entry where
  | constant (c : Constant)
  | pair (tag : UInt8) (owner member : Index)
deriving Repr, DecidableEq

namespace Entry

def encode : Entry → Bytes
  | constant c => c.encode
  | pair tag owner member => tag :: (Bytes.of16 owner ++ Bytes.of16 member)

def isWide : Entry → Bool
  | constant c => c.kind.isWide
  | pair .. => false

/-- The number of slots the entry takes. -/
def slots (e : Entry) : Index := if e.isWide then 2 else 1

end Entry

structure RawAttribute where
  name : Index
  info : Bytes
deriving Repr, DecidableEq

/-- Whether a member is a field or a method. -/
inductive MemberSort where
  | field | method
deriving Repr, DecidableEq

structure RawMember where
  sort : MemberSort
  access : AccessFlags
  name : Index
  descriptor : Index
  attributes : List RawAttribute
deriving Repr, DecidableEq

/-- A local variable by name and type. -/
structure Variable where
  name : String
  descriptor : String
  slot : UInt16
deriving Repr, DecidableEq

end Draft

/-- Members stand in the order of their creation, fields and methods together. -/
structure Draft where
  entries : Array Draft.Entry
  next : Index
  texts : List (String × Index)
  access : AccessFlags
  this : Index
  super : Index
  interfaces : List Index
  members : List Draft.RawMember
  attributes : List Draft.RawAttribute
deriving Repr, DecidableEq

/-- A step of drafting. -/
abbrev Drafting := StateM Draft

namespace Drafting
open Draft

/-! ### The pool -/

/-- Adds an entry and returns its index. -/
def add (e : Entry) : Drafting Index := fun d =>
  (d.next, { d with entries := d.entries.push e, next := d.next + e.slots })

def constant (c : Constant) : Drafting Index := add (.constant c)

/-- The slot of a text, which is taken on first use. -/
def utf8 (s : String) : Drafting Index := fun d =>
  match d.texts.lookup s with
  | some i => (i, d)
  | none =>
    let (i, d) := constant (.utf8 s) d
    (i, { d with texts := (s, i) :: d.texts })

def string (s : String) : Drafting Index := do constant (.string (← utf8 s))

def classRef (name : String) : Drafting Index := do constant (.classRef (← utf8 name))

def nameAndType (name descriptor : String) : Drafting Index := do
  let name ← utf8 name
  let descriptor ← utf8 descriptor
  constant (.nameAndType name descriptor)

/-- A reference to a member of a class, built from their names. -/
def reference (build : Index → Index → Constant) (owner name descriptor : String) : Drafting Index := do
  let owner ← classRef owner
  let member ← nameAndType name descriptor
  constant (build owner member)

/-! ### Attributes -/

def sourceFile (name : String) : Drafting RawAttribute := do
  let label ← utf8 "SourceFile"
  let name ← utf8 name
  return ⟨label, Bytes.of16 name⟩

def exceptions (names : List String) : Drafting RawAttribute := do
  let rows ← names.mapM classRef
  let label ← utf8 "Exceptions"
  return ⟨label, Bytes.of16 (UInt16.ofNat names.length) ++ rows.flatMap Bytes.of16⟩

/-- A parameter without a name has the index zero. -/
def parameter (name : String) : Drafting Index := if name = "" then return 0 else utf8 name

def parameters (names : List String) : Drafting RawAttribute := do
  let rows ← names.mapM parameter
  let label ← utf8 "MethodParameters"
  return ⟨label, UInt8.ofNat names.length :: rows.flatMap fun i => Bytes.of16 i ++ [0, 0]⟩

/-- A row of a table of local variables: live at the one instruction of the body. -/
def variableRow (v : Variable) : Drafting Bytes := do
  let name ← utf8 v.name
  let descriptor ← utf8 v.descriptor
  return [0, 0, 0, 1] ++ Bytes.of16 name ++ Bytes.of16 descriptor ++ Bytes.of16 v.slot

/-- A body that returns at once, with a table of local variables. -/
def code (locals : List Variable) : Drafting RawAttribute := do
  let rows ← locals.mapM variableRow
  let table := Bytes.of16 (UInt16.ofNat locals.length) ++ rows.flatten
  let tableLabel ← utf8 "LocalVariableTable"
  let label ← utf8 "Code"
  return ⟨label, [0, 1, 0, 4] ++ Bytes.of32 1 ++ [0xB1] ++ [0, 0] ++ Bytes.of16 1 ++
    Bytes.of16 tableLabel ++ Bytes.of32 (UInt32.ofNat table.length) ++ table⟩

/-! ### The class -/

def attach (a : RawAttribute) : Drafting Unit :=
  modify fun d => { d with attributes := d.attributes ++ [a] }

def addMember (m : RawMember) : Drafting Unit :=
  modify fun d => { d with members := d.members ++ [m] }

/-- Attaches an attribute to the member of that number. -/
def attachTo (member : Nat) (a : RawAttribute) : Drafting Unit :=
  modify fun d => { d with members := d.members.modify member fun m => { m with attributes := m.attributes ++ [a] } }

def implement (name : String) : Drafting Unit := do
  let i ← classRef name
  modify fun d => { d with interfaces := d.interfaces ++ [i] }

end Drafting

namespace Draft

/-- A draft without constants. -/
def blank : Draft := ⟨#[], 1, [], 0x0021, 0, 0, [], [], []⟩

/-- A public class of the given name; an empty name of the superclass leaves it out. -/
def start (name super : String) : Draft :=
  let (this, d) := Drafting.classRef name blank
  if super = "" then { d with this }
  else
    let (super, d) := Drafting.classRef super d
    { d with this, super }

/-- The pool count that the file declares. -/
def count (d : Draft) : Nat := d.next.toNat

def encodeAttributes (as : List RawAttribute) : Bytes :=
  Bytes.of16 (UInt16.ofNat as.length) ++ as.flatMap fun a =>
    Bytes.of16 a.name ++ Bytes.of32 (UInt32.ofNat a.info.length) ++ a.info

def encodeMembers (ms : List RawMember) : Bytes :=
  Bytes.of16 (UInt16.ofNat ms.length) ++ ms.flatMap fun m =>
    Bytes.of16 m.access ++ Bytes.of16 m.name ++ Bytes.of16 m.descriptor ++ encodeAttributes m.attributes

/-- The members of one sort, in order. -/
def membersOf (d : Draft) (sort : MemberSort) : List RawMember := d.members.filter (·.sort == sort)

/-- The class file, of version 52.0. -/
def encode (d : Draft) : Bytes :=
  Bytes.of32 0xCAFEBABE ++ Bytes.of16 0 ++ Bytes.of16 52 ++ Bytes.of16 d.next ++
    d.entries.toList.flatMap Entry.encode ++
    Bytes.of16 d.access ++ Bytes.of16 d.this ++ Bytes.of16 d.super ++
    Bytes.of16 (UInt16.ofNat d.interfaces.length) ++ d.interfaces.flatMap Bytes.of16 ++
    encodeMembers (d.membersOf .field) ++ encodeMembers (d.membersOf .method) ++
    encodeAttributes d.attributes

end Draft
end ClassAtlas.ClassFile
