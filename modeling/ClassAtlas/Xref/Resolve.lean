import ClassAtlas.Decimal.Spelling
import ClassAtlas.Spelling
import ClassAtlas.Xref.Marks

/-!
The text of a constant. A constant that refers to others is spelled through them,
and each reference must lead to a constant of the kind its user expects. Every
index that is read is marked, also on the way to a failure.
-/
namespace ClassAtlas.Xref
open ClassFile

/-- What a reference has to lead to. -/
inductive Expected where
  | utf8 | nameAndType | classRef | memberRef
deriving Repr, DecidableEq

def Expected.name : Expected → String
  | utf8 => "Utf8"
  | nameAndType => "NameAndType"
  | classRef => "Class"
  | memberRef => "member reference"

/-- What is wrong with the constant at an index. -/
inductive ConstantFault where
  | outOfRange (count : Nat)
  | emptySlot
  | unexpected (expected : Expected) (found : ConstantKind)
  | className (name : String) (fault : Descriptor.Fault)
  | descriptor (fault : Descriptor.Fault)
deriving Repr, DecidableEq

def ConstantFault.message : ConstantFault → String
  | outOfRange count => "index out of range [1, " ++ toString count ++ ")"
  | emptySlot => "empty slot"
  | unexpected expected found => "want " ++ expected.name ++ ", found " ++ found.name
  | className name fault => "class name " ++ Text.Quoted.encode name ++ ": " ++ fault.message
  | descriptor fault => fault.message

/-- The error of a fault in the constant at an index. -/
def ConstantFault.at (i : Index) (fault : ConstantFault) : Error :=
  Sentinel.malformedConstant.saying ("#" ++ toString i.toNat ++ ": " ++ fault.message)

/-- A computation that marks what it reads. Marks made before a failure stay. -/
abbrev Resolver := ExceptT Error (StateM Marks)

namespace Resolver

def run (r : Resolver α) (m : Marks) : Except Error α × Marks := ExceptT.run r m

def mark (i : Index) : Resolver Unit := modify (Marks.mark · i)

def fail (i : Index) (fault : ConstantFault) : Resolver α := throw (fault.at i)

/-- The result of an inner step, with a failure blamed on an index. -/
def orBlame (i : Index) (fault : Descriptor.Fault → ConstantFault) :
    Except Descriptor.Fault α → Resolver α
  | .ok a => return a
  | .error e => fail i (fault e)

variable (pool : Pool)

/-- The constant at an index. -/
def lookUp (i : Index) : Except ConstantFault Constant :=
  if i = 0 ∨ pool.count ≤ i.toNat then .error (.outOfRange pool.count)
  else match pool.get? i with
    | some c => .ok c
    | none => .error .emptySlot

def entry (i : Index) : Resolver Constant :=
  match lookUp pool i with
  | .ok c => return c
  | .error fault => fail i fault

def utf8 (i : Index) : Resolver String := do
  match ← entry pool i with
  | .utf8 value => mark i; return value
  | c => fail i (.unexpected .utf8 c.kind)

/-- The class named by the text at an index. -/
def className (name : Index) : Resolver String := do
  let text ← utf8 pool name
  orBlame name (.className text) (Spelling.classConstant text)

def classRef (i : Index) : Resolver String := do
  match ← entry pool i with
  | .classRef name => mark i; className pool name
  | c => fail i (.unexpected .classRef c.kind)

/-- A typed name: `type name` for a field, `result name(types)` for a method. -/
def typedName (name descriptor : Index) : Resolver String := do
  let name ← utf8 pool name
  let text ← utf8 pool descriptor
  match text.toList with
  | '(' :: _ =>
    let (result, parameters) ← orBlame descriptor .descriptor (Spelling.signature true text)
    return result ++ " " ++ name ++ "(" ++ ", ".intercalate parameters ++ ")"
  | _ =>
    let type ← orBlame descriptor .descriptor (Spelling.type true text)
    return type ++ " " ++ name

def nameAndType (i : Index) : Resolver String := do
  match ← entry pool i with
  | .nameAndType name descriptor => mark i; typedName pool name descriptor
  | c => fail i (.unexpected .nameAndType c.kind)

def memberOf (owner member : Index) : Resolver String := do
  let owner ← classRef pool owner
  let member ← nameAndType pool member
  return owner ++ " " ++ member

def methodType (descriptor : Index) : Resolver String := do
  let text ← utf8 pool descriptor
  let (result, parameters) ← orBlame descriptor .descriptor (Spelling.signature true text)
  return "(" ++ ", ".intercalate parameters ++ ") " ++ result

/-- How far the kinds of constants that refer to one another are above the others. -/
def tier : Constant → Nat
  | .methodHandle .. => 1
  | _ => 0

theorem tier_of_isMember {c : Constant} (h : c.kind.isMember = true) : tier c = 0 := by
  cases c with
  | methodHandle action target => cases h
  | _ => rfl

/-- The tier of the constant at an index, zero where there is none. -/
def tierAt (i : Index) : Nat := ((pool.get? i).map tier).getD 0

theorem tierAt_of_lookUp {i : Index} {c : Constant} (h : lookUp pool i = .ok c) : tierAt pool i = tier c := by
  unfold lookUp at h
  split at h
  · cases h
  · split at h
    · rename_i hc
      obtain rfl := Except.ok.inj h
      rw [tierAt, hc]
      rfl
    · cases h

mutual

/-- The text of the constant at an index. -/
def resolve (i : Index) : Resolver String :=
  match h : lookUp pool i with
  | .error fault => fail i fault
  | .ok c =>
    have := tierAt_of_lookUp pool h
    do
      mark i
      constant c
termination_by 3 * tierAt pool i + 1

/-- The text of a constant. -/
def constant : Constant → Resolver String
  | .utf8 value => return value
  | .integer value => return toString value.toInt
  | .long value => return toString value.toInt
  | .float bits => return (Decimal.Ieee.single.decode bits.toNat).spell
  | .double bits => return (Decimal.Ieee.double.decode bits.toNat).spell
  | .string value => utf8 pool value
  | .classRef name => className pool name
  | .nameAndType name descriptor => typedName pool name descriptor
  | .fieldref owner member => memberOf pool owner member
  | .methodref owner member => memberOf pool owner member
  | .interfaceMethodref owner member => memberOf pool owner member
  | .methodType descriptor => methodType pool descriptor
  | .methodHandle action target => methodHandle action target
  | .dynamic _ member => nameAndType pool member
  | .invokeDynamic _ member => nameAndType pool member
  | .module name => utf8 pool name
  | .package name => do return Spelling.dotted (← utf8 pool name)
termination_by c => 3 * tier c
decreasing_by exact Nat.lt_succ_self 2

/-- What a method handle does, and the member that it does it to. -/
def methodHandle (action : UInt8) (target : Index) : Resolver String :=
  match h : lookUp pool target with
  | .error fault => fail target fault
  | .ok c =>
    if hmember : c.kind.isMember then
      have : tierAt pool target = 0 := (tierAt_of_lookUp pool h).trans (tier_of_isMember hmember)
      do return handleAction action ++ " " ++ (← resolve target)
    else fail target (.unexpected .memberRef c.kind)
termination_by 2

end

/-! ### What is left over -/

/-- The texts of the constants at the given indices that are present and not marked
when their turn comes, newest first in front of `found`. -/
def collectFrom : List Nat → List String → Resolver (List String)
  | [], found => return found
  | n :: rest, found => do
    let i := UInt16.ofNat n
    if (← get).has i || (pool.get? i).isNone then collectFrom rest found
    else
      let text ← resolve pool i
      collectFrom rest (text :: found)

/-- The texts of the constants not marked so far, in index order. Spelling one marks
what it refers to, so a constant reached through an earlier one is passed over. -/
def collect : Resolver (List String) := do
  return (← collectFrom pool (List.range' 1 (pool.count - 1)) []).reverse

end Resolver
end ClassAtlas.Xref
