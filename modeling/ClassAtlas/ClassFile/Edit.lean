import ClassAtlas.ClassFile.Draft

/-!
The edits by which a draft grows. Some add a constant and answer with its index,
the others change the class and answer nothing; a run of edits is a fold.
-/
namespace ClassAtlas.ClassFile

/-- `member` counts the fields and methods in the order of their creation. -/
inductive Edit where
  | access (flags : AccessFlags)
  | implements (names : List String)
  | super (index : Index)
  | sourceFile (name : String)
  | classLocals (locals : List Draft.Variable)
  | member (sort : Draft.MemberSort) (flags : AccessFlags) (name descriptor : String)
  | rawMember (sort : Draft.MemberSort) (flags : AccessFlags) (name descriptor : Index)
  | throws (member : Nat) (names : List String)
  | locals (member : Nat) (locals : List Draft.Variable)
  | parameters (member : Nat) (names : List String)
  | utf8 (text : String)
  | string (text : String)
  | classNamed (name : String)
  | nameAndType (name descriptor : String)
  | fieldref (owner name descriptor : String)
  | methodref (owner name descriptor : String)
  | interfaceMethodref (owner name descriptor : String)
  | pair (tag : UInt8) (owner member : Index)
  | methodType (descriptor : String)
  | dynamic (bootstrap : UInt16) (name descriptor : String)
  | invokeDynamic (bootstrap : UInt16) (name descriptor : String)
  | module (name : String)
  | package (name : String)
  | constant (c : Constant)
deriving Repr, DecidableEq

namespace Edit
open Drafting

/-- Carries an edit out. The result is the index of the constant it added. -/
def run : Edit → Drafting (Option Index)
  | access flags => do
    modify fun d => { d with access := flags }
    return none
  | implements names => do
    names.forM implement
    return none
  | super index => do
    modify fun d => { d with super := index }
    return none
  | sourceFile name => do
    attach (← Drafting.sourceFile name)
    return none
  | classLocals rows => do
    attach (← code rows)
    return none
  | member sort flags name descriptor => do
    let name ← Drafting.utf8 name
    let descriptor ← Drafting.utf8 descriptor
    addMember ⟨sort, flags, name, descriptor, []⟩
    return none
  | rawMember sort flags name descriptor => do
    addMember ⟨sort, flags, name, descriptor, []⟩
    return none
  | throws owner names => do
    attachTo owner (← exceptions names)
    return none
  | locals owner rows => do
    attachTo owner (← code rows)
    return none
  | parameters owner names => do
    attachTo owner (← Drafting.parameters names)
    return none
  | utf8 text => some <$> Drafting.utf8 text
  | string text => some <$> Drafting.string text
  | classNamed name => some <$> classRef name
  | nameAndType name descriptor => some <$> Drafting.nameAndType name descriptor
  | fieldref owner name descriptor => some <$> reference .fieldref owner name descriptor
  | methodref owner name descriptor => some <$> reference .methodref owner name descriptor
  | interfaceMethodref owner name descriptor =>
    some <$> reference .interfaceMethodref owner name descriptor
  | pair tag first second => some <$> add (.pair tag first second)
  | methodType descriptor => do return some (← Drafting.constant (.methodType (← Drafting.utf8 descriptor)))
  | dynamic bootstrap name descriptor => do
    return some (← Drafting.constant (.dynamic bootstrap (← Drafting.nameAndType name descriptor)))
  | invokeDynamic bootstrap name descriptor => do
    return some (← Drafting.constant (.invokeDynamic bootstrap (← Drafting.nameAndType name descriptor)))
  | .module name => do return some (← Drafting.constant (.module (← Drafting.utf8 name)))
  | package name => do return some (← Drafting.constant (.package (← Drafting.utf8 name)))
  | constant c => some <$> Drafting.constant c

/-- Carries out a list of edits, with the answer of each and the pool count behind it. -/
def runAll (d : Draft) : List Edit → List (Option Index × Nat) × Draft
  | [] => ([], d)
  | e :: rest =>
    let (answer, d) := e.run d
    let (answers, last) := runAll d rest
    ((answer, d.count) :: answers, last)

end Edit
end ClassAtlas.ClassFile
