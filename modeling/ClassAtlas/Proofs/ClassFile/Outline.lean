import ClassAtlas.ClassFile.Edit
import Mathlib.Algebra.GroupWithZero.Nat
import Mathlib.Data.List.Forall2

/-! What a list of edits asks for.

An outline is a class as its author thinks of it: its parts are named by texts, and there is no
pool and there are no bytes. Edits change an outline (`Outline.apply`) as they change a draft,
and a class *realizes* an outline (`ClassModel.Realizes`) when its indices lead to the texts of
the outline through its own pool. What an edit asks of the pool alone is `Edit.Answered`. The
limits that the file format sets to texts and lists are `Edit.Writable` and `Outline.Fits`. -/
namespace ClassAtlas.ClassFile
open Draft (Variable MemberSort)

/-! ### Outlines -/

/-- What stands for a name: the text of the name, or an index that was chosen as such. -/
inductive Designation where
  | text (text : String)
  | index (index : Index)

namespace Outline

/-- An attribute by what it says. -/
inductive Content where
  | sourceFile (name : String)
  | exceptions (classes : List String)
  /-- A parameter without a name has the empty one. -/
  | parameters (names : List String)
  | code (locals : List Variable)

def Content.label : Content → String
  | sourceFile _ => "SourceFile"
  | exceptions _ => "Exceptions"
  | parameters _ => "MethodParameters"
  | code _ => "Code"

structure Member where
  sort : MemberSort
  access : AccessFlags
  name : Designation
  descriptor : Designation
  attributes : List Content

end Outline

structure Outline where
  access : AccessFlags
  this : String
  super : Option Designation
  interfaces : List String
  members : List Outline.Member
  attributes : List Outline.Content

namespace Outline

/-- A public class; an empty name of the superclass leaves it out. -/
def start (name super : String) : Outline :=
  ⟨0x0021, name, if super = "" then none else some (.text super), [], [], []⟩

def attach (o : Outline) (c : Content) : Outline := { o with attributes := o.attributes ++ [c] }

def addMember (o : Outline) (m : Member) : Outline := { o with members := o.members ++ [m] }

def attachTo (o : Outline) (member : Nat) (c : Content) : Outline :=
  { o with members := o.members.modify member fun m => { m with attributes := m.attributes ++ [c] } }

/-- The outline after an edit. Edits that only add constants leave it. -/
def apply (o : Outline) : Edit → Outline
  | .access flags => { o with access := flags }
  | .implements names => { o with interfaces := o.interfaces ++ names }
  | .super index => { o with super := some (.index index) }
  | .sourceFile name => o.attach (.sourceFile name)
  | .classLocals locals => o.attach (.code locals)
  | .member sort flags name descriptor => o.addMember ⟨sort, flags, .text name, .text descriptor, []⟩
  | .rawMember sort flags name descriptor => o.addMember ⟨sort, flags, .index name, .index descriptor, []⟩
  | .throws member names => o.attachTo member (.exceptions names)
  | .locals member locals => o.attachTo member (.code locals)
  | .parameters member names => o.attachTo member (.parameters names)
  | _ => o

/-- The members of one sort, in the order of their creation. -/
def membersOf (o : Outline) (sort : MemberSort) : List Member := o.members.filter (·.sort == sort)

/-- The class that edits ask for. -/
def ofEdits (name super : String) (edits : List Edit) : Outline := edits.foldl apply (start name super)

end Outline

/-! ### What a class has of an outline -/

namespace Pool

def IsText (p : Pool) (i : Index) : Designation → Prop
  | .text s => p.utf8? i = some s
  | .index j => i = j

/-- A superclass by name or by index; none at all is the index zero. -/
def IsSuper (p : Pool) (i : Index) : Option Designation → Prop
  | none => i = 0
  | some (.text name) => p.className? i = some name
  | some (.index j) => i = j

/-- A name and a type in one constant. -/
def IsNameAndType (p : Pool) (i : Index) (name descriptor : String) : Prop :=
  ∃ j k, p.get? i = some (.nameAndType j k) ∧ p.utf8? j = some name ∧ p.utf8? k = some descriptor

/-- A reference to a member, of the kind that `build` makes. -/
def IsReference (p : Pool) (build : Index → Index → Constant) (i : Index) (owner name descriptor : String) : Prop :=
  ∃ j k, p.get? i = some (build j k) ∧ p.className? j = some owner ∧ p.IsNameAndType k name descriptor

/-- The classes of a list, by name. -/
def AreClasses (p : Pool) (is : List Index) (names : List String) : Prop :=
  List.Forall₂ (fun i name => p.className? i = some name) is names

/-- A parameter has its name, or no name, and no flags. -/
def IsParameter (p : Pool) (row : Parameter) (name : String) : Prop :=
  row.access = 0 ∧ if name = "" then row.name = 0 else p.utf8? row.name = some name

/-- A local variable has its name, type and slot, and lives at the one instruction of the body. -/
structure IsLocal (p : Pool) (row : Local) (v : Variable) : Prop where
  start : row.start = 0
  length : row.length = 1
  name : p.utf8? row.name = some v.name
  descriptor : p.utf8? row.descriptor = some v.descriptor
  slot : row.slot = v.slot

/-- A body of one instruction, with one table of local variables. -/
structure IsCode (p : Pool) (c : Code) (locals : List Variable) : Prop where
  limits : c.maxStack = 1 ∧ c.maxLocals = 4
  code : c.code = [0xB1]
  handlers : c.handlers = []
  locals : ∃ rows, c.localTables = [rows] ∧ List.Forall₂ p.IsLocal rows locals

/-- The contents of an attribute say what was asked for. -/
def Says (p : Pool) : Body → Outline.Content → Prop
  | .sourceFile i, .sourceFile name => p.utf8? i = some name
  | .exceptions is, .exceptions classes => p.AreClasses is classes
  | .parameters rows, .parameters names => List.Forall₂ p.IsParameter rows names
  | .code c, .code locals => p.IsCode c locals
  | _, _ => False

/-- An attribute has the name and the contents that were asked for. -/
def IsAttribute (p : Pool) (a : Attribute) (c : Outline.Content) : Prop :=
  p.utf8? a.name = some c.label ∧ ∃ body, a.body = some body ∧ p.Says body c

structure IsMember (p : Pool) (m : Member) (w : Outline.Member) : Prop where
  access : m.access = w.access
  name : p.IsText m.name w.name
  descriptor : p.IsText m.descriptor w.descriptor
  attributes : List.Forall₂ p.IsAttribute m.attributes w.attributes

end Pool

/-- The class has the parts of the outline, in their order. -/
structure ClassModel.Realizes (c : ClassModel) (o : Outline) : Prop where
  version : c.minor = 0 ∧ c.major = 52
  access : c.access = o.access
  this : c.pool.className? c.this = some o.this
  super : c.pool.IsSuper c.super o.super
  interfaces : c.pool.AreClasses c.interfaces o.interfaces
  fields : List.Forall₂ c.pool.IsMember c.fields (o.membersOf .field)
  methods : List.Forall₂ c.pool.IsMember c.methods (o.membersOf .method)
  attributes : List.Forall₂ c.pool.IsAttribute c.attributes o.attributes

/-! ### What the pool has of an edit -/

/-- The answer to an edit that adds a constant is the index of one of the kind and the contents
asked for; a constant of two slots is followed by an empty one. Other edits answer nothing. -/
def Edit.Answered (p : Pool) (answer : Option Index) : Edit → Prop
  | .utf8 text => ∃ i, answer = some i ∧ p.utf8? i = some text
  | .string text => ∃ i j, answer = some i ∧ p.get? i = some (.string j) ∧ p.utf8? j = some text
  | .classNamed name => ∃ i, answer = some i ∧ p.className? i = some name
  | .nameAndType name descriptor => ∃ i, answer = some i ∧ p.IsNameAndType i name descriptor
  | .fieldref owner name descriptor => ∃ i, answer = some i ∧ p.IsReference .fieldref i owner name descriptor
  | .methodref owner name descriptor => ∃ i, answer = some i ∧ p.IsReference .methodref i owner name descriptor
  | .interfaceMethodref owner name descriptor =>
    ∃ i, answer = some i ∧ p.IsReference .interfaceMethodref i owner name descriptor
  | .pair tag first second => ∃ i, answer = some i ∧
      ((tag = ConstantKind.fieldref.tag ∧ p.get? i = some (.fieldref first second)) ∨
        (tag = ConstantKind.methodref.tag ∧ p.get? i = some (.methodref first second)) ∨
        tag = ConstantKind.interfaceMethodref.tag ∧ p.get? i = some (.interfaceMethodref first second))
  | .methodType descriptor => ∃ i j, answer = some i ∧ p.get? i = some (.methodType j) ∧ p.utf8? j = some descriptor
  | .dynamic bootstrap name descriptor =>
    ∃ i j, answer = some i ∧ p.get? i = some (.dynamic bootstrap j) ∧ p.IsNameAndType j name descriptor
  | .invokeDynamic bootstrap name descriptor =>
    ∃ i j, answer = some i ∧ p.get? i = some (.invokeDynamic bootstrap j) ∧ p.IsNameAndType j name descriptor
  | .module name => ∃ i j, answer = some i ∧ p.get? i = some (.module j) ∧ p.utf8? j = some name
  | .package name => ∃ i j, answer = some i ∧ p.get? i = some (.package j) ∧ p.utf8? j = some name
  | .constant c => ∃ i, answer = some i ∧ p.get? i = some c ∧ (c.kind.isWide = true → p.slots[i.toNat]? = some none)
  | _ => answer = none

/-- No text has two slots. -/
def Pool.Interned (p : Pool) : Prop := ∀ i j s, p.utf8? i = some s → p.utf8? j = some s → i = j

/-! ### Limits -/

/-- A text that the file can hold: no character above U+FFFF, and no more bytes than a word counts. -/
def Writable (s : String) : Prop := (∀ c ∈ s.toList, c.toNat ≤ 0xFFFF) ∧ (Text.Utf8.encode s).length ≤ 0xFFFF

instance (s : String) : Decidable (Writable s) :=
  decidable_of_iff ((s.toList.all fun c => c.toNat ≤ 0xFFFF) = true ∧ (Text.Utf8.encode s).length ≤ 0xFFFF)
    (by simp [Writable])

/-- A list whose length a word counts. -/
def Countable (xs : List α) : Prop := xs.length ≤ 0xFFFF

instance (xs : List α) : Decidable (Countable xs) := inferInstanceAs (Decidable (_ ≤ _))

def Draft.Variable.Writable (v : Variable) : Prop := ClassFile.Writable v.name ∧ ClassFile.Writable v.descriptor

instance (v : Variable) : Decidable v.Writable := inferInstanceAs (Decidable (_ ∧ _))

/-- The texts of an edit can be written, its lists counted, and a tag of the caller's choice is that of
a reference to a member. Texts come into the pool as texts, never as constants made by hand. -/
def Edit.Writable : Edit → Prop
  | .implements names => ∀ n ∈ names, ClassFile.Writable n
  | .sourceFile name => ClassFile.Writable name
  | .classLocals rows | .locals _ rows => (∀ v ∈ rows, v.Writable) ∧ Countable rows
  | .member _ _ name descriptor => ClassFile.Writable name ∧ ClassFile.Writable descriptor
  | .throws _ names => (∀ n ∈ names, ClassFile.Writable n) ∧ Countable names
  | .parameters _ names => (∀ n ∈ names, ClassFile.Writable n) ∧ names.length ≤ 255
  | .utf8 text | .string text | .classNamed text | .methodType text | .module text | .package text =>
    ClassFile.Writable text
  | .nameAndType name descriptor | .dynamic _ name descriptor | .invokeDynamic _ name descriptor =>
    ClassFile.Writable name ∧ ClassFile.Writable descriptor
  | .fieldref owner name descriptor | .methodref owner name descriptor
  | .interfaceMethodref owner name descriptor =>
    ClassFile.Writable owner ∧ ClassFile.Writable name ∧ ClassFile.Writable descriptor
  | .pair tag _ _ => tag = ConstantKind.fieldref.tag ∨ tag = ConstantKind.methodref.tag ∨
      tag = ConstantKind.interfaceMethodref.tag
  | .constant c => c.kind ≠ .utf8
  | .access _ | .super _ | .rawMember .. => True

instance : (e : Edit) → Decidable e.Writable
  | .implements names => inferInstanceAs (Decidable (∀ n ∈ names, ClassFile.Writable n))
  | .classLocals rows | .locals _ rows => inferInstanceAs (Decidable ((∀ v ∈ rows, v.Writable) ∧ Countable rows))
  | .throws _ names => inferInstanceAs (Decidable ((∀ n ∈ names, ClassFile.Writable n) ∧ Countable names))
  | .parameters _ names => inferInstanceAs (Decidable ((∀ n ∈ names, ClassFile.Writable n) ∧ names.length ≤ 255))
  | .sourceFile text | .utf8 text | .string text | .classNamed text | .methodType text | .module text
  | .package text => inferInstanceAs (Decidable (ClassFile.Writable text))
  | .member _ _ name descriptor | .nameAndType name descriptor | .dynamic _ name descriptor
  | .invokeDynamic _ name descriptor =>
    inferInstanceAs (Decidable (ClassFile.Writable name ∧ ClassFile.Writable descriptor))
  | .fieldref owner name descriptor | .methodref owner name descriptor
  | .interfaceMethodref owner name descriptor =>
    inferInstanceAs (Decidable (ClassFile.Writable owner ∧ ClassFile.Writable name ∧ ClassFile.Writable descriptor))
  | .pair tag _ _ => inferInstanceAs (Decidable (tag = ConstantKind.fieldref.tag ∨
      tag = ConstantKind.methodref.tag ∨ tag = ConstantKind.interfaceMethodref.tag))
  | .constant c => inferInstanceAs (Decidable (c.kind ≠ .utf8))
  | .access _ | .super _ | .rawMember .. => inferInstanceAs (Decidable True)

/-- The lists of an outline can be counted. -/
structure Outline.Fits (o : Outline) : Prop where
  interfaces : Countable o.interfaces
  fields : Countable (o.membersOf .field)
  methods : Countable (o.membersOf .method)
  members : ∀ m ∈ o.members, Countable m.attributes
  attributes : Countable o.attributes

/-- The pool count of a draft, by the slots that its entries take. -/
def Draft.poolCount (d : Draft) : Nat := (d.entries.toList.map (·.slots.toNat)).sum + 1

end ClassAtlas.ClassFile
