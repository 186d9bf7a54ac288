import ClassAtlas.Bytes
import ClassAtlas.ClassFile.Access
import ClassAtlas.ClassFile.Constant

/-!
A class as its file declares it: members and attributes refer to the constant
pool by index. An attribute keeps its bytes and, when its kind is one that the
library reads, the contents they spell.
-/
namespace ClassAtlas.ClassFile

/-- A row of a method's exception table: the guarded range, the handler and the type caught. -/
structure Handler where
  start : UInt16
  stop : UInt16
  handler : UInt16
  caught : Index
deriving Repr, DecidableEq

/-- A local variable: where it lives, its name and type, and its slot in the frame. -/
structure Local where
  start : UInt16
  length : UInt16
  name : Index
  descriptor : Index
  slot : UInt16
deriving Repr, DecidableEq

structure Parameter where
  name : Index
  access : AccessFlags
deriving Repr, DecidableEq

/-- An attribute of a code body. Its rows are known when it is a table of local variables. -/
structure CodeAttribute where
  name : Index
  info : Bytes
  locals : Option (List Local)
deriving Repr, DecidableEq

structure Code where
  maxStack : UInt16
  maxLocals : UInt16
  code : Bytes
  handlers : List Handler
  attributes : List CodeAttribute
deriving Repr, DecidableEq

/-- The tables of local variables, in file order. -/
def Code.localTables (c : Code) : List (List Local) := c.attributes.filterMap (·.locals)

/-- Contents of an attribute of a class, field or method. -/
inductive Body where
  | code (code : Code)
  | sourceFile (name : Index)
  | exceptions (classes : List Index)
  | parameters (rows : List Parameter)
deriving Repr, DecidableEq

structure Attribute where
  name : Index
  info : Bytes
  body : Option Body
deriving Repr, DecidableEq

namespace Attribute

def code? (a : Attribute) : Option Code :=
  match a.body with
  | some (.code c) => some c
  | _ => none

def sourceFile? (a : Attribute) : Option Index :=
  match a.body with
  | some (.sourceFile i) => some i
  | _ => none

def exceptions? (a : Attribute) : Option (List Index) :=
  match a.body with
  | some (.exceptions is) => some is
  | _ => none

def parameters? (a : Attribute) : Option (List Parameter) :=
  match a.body with
  | some (.parameters ps) => some ps
  | _ => none

/-- The first attribute with the given name. An attribute whose name is no text
goes by the empty name. -/
def find? (pool : Pool) (name : String) (attributes : List Attribute) : Option Attribute :=
  attributes.find? fun a => (pool.utf8? a.name).getD "" == name

end Attribute

/-- A field or a method. -/
structure Member where
  access : AccessFlags
  name : Index
  descriptor : Index
  attributes : List Attribute
deriving Repr, DecidableEq

structure ClassModel where
  minor : UInt16
  major : UInt16
  pool : Pool
  access : AccessFlags
  this : Index
  super : Index
  interfaces : List Index
  fields : List Member
  methods : List Member
  attributes : List Attribute
deriving Repr, DecidableEq

namespace Member

def nameText (m : Member) (pool : Pool) : String := (pool.utf8? m.name).getD ""

def descriptorText (m : Member) (pool : Pool) : String := (pool.utf8? m.descriptor).getD ""

/-- The contents of the first attribute named `Code`. -/
def code? (m : Member) (pool : Pool) : Option Code :=
  (Attribute.find? pool "Code" m.attributes).bind (·.code?)

end Member

namespace ClassModel

def name (c : ClassModel) : String := (c.pool.className? c.this).getD ""

def superName (c : ClassModel) : String := (c.pool.className? c.super).getD ""

def interfaceNames (c : ClassModel) : List String := c.interfaces.map fun i => (c.pool.className? i).getD ""

def field? (c : ClassModel) (name : String) : Option Member :=
  c.fields.find? fun f => f.nameText c.pool == name

/-- The first method with this name and, unless it is empty, this descriptor. -/
def method? (c : ClassModel) (name descriptor : String) : Option Member :=
  c.methods.find? fun m => m.nameText c.pool == name &&
    (descriptor == "" || m.descriptorText c.pool == descriptor)

def attribute? (c : ClassModel) (name : String) : Option Attribute :=
  Attribute.find? c.pool name c.attributes

/-- The source file that the class names, if it carries a readable `SourceFile` attribute. -/
def sourceFile? (c : ClassModel) : Option String :=
  ((c.attribute? "SourceFile").bind (·.sourceFile?)).map fun i => (c.pool.utf8? i).getD ""

/-- The class with the contents of its own and its methods' attributes forgotten. -/
def forgetBodies (c : ClassModel) : ClassModel :=
  let forget (as : List Attribute) : List Attribute := as.map fun a => { a with body := none }
  { c with
    attributes := forget c.attributes
    methods := c.methods.map fun m => { m with attributes := forget m.attributes } }

end ClassModel
end ClassAtlas.ClassFile
