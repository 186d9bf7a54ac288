import ClassAtlas.ClassFile.Basic
import ClassAtlas.Spelling
import ClassAtlas.Xref.Link
import ClassAtlas.Xref.Marks

/-!
The rendition of a class: its source file, package, header, fields and methods, in
this order. A walk over the class yields items, which are pieces of text, links,
tokens and marks on the pool indices that were shown; the text, the two token lists
and the marks of a rendition are read off the same walk.
-/
namespace ClassAtlas.Xref
open ClassFile

/-! ### Failures -/

/-- Why a class cannot be rendered. -/
inductive ModelFault where
  | notUtf8 (index : Index)
  | notClass (index : Index)
  /-- A `SourceFile` attribute whose contents are not known. -/
  | sourceFile
  | field (name : String) (fault : Descriptor.Fault)
  | method (name : String) (fault : Descriptor.Fault)
  | localVariable (name : String) (fault : Descriptor.Fault)
deriving Repr, DecidableEq

/-- A fault in a descriptor is quoted, so that the error is one of the class alone. -/
def ModelFault.error : ModelFault → Error
  | notUtf8 index => Sentinel.malformedModel.saying ("#" ++ toString index.toNat ++ " is not a Utf8 constant")
  | notClass index => Sentinel.malformedModel.saying ("#" ++ toString index.toNat ++ " is not a Class constant")
  | sourceFile => Sentinel.malformedModel.saying "undecoded SourceFile attribute"
  | field name fault => Sentinel.malformedModel.saying ("field " ++ name ++ ": " ++ fault.message)
  | method name fault => Sentinel.malformedModel.saying ("method " ++ name ++ ": " ++ fault.message)
  | localVariable name fault =>
    Sentinel.malformedModel.saying ("local variable " ++ name ++ ": " ++ fault.message)

/-- A part of the class in which a failure arose. -/
inductive Part where
  | sourceFile | thisClass | superClass
  | interface (number : Nat)
  | field (number : Nat)
  | method (number : Nat)
  | methodNamed (name : String)
  | parameter (number : Nat)
  | exception (number : Nat)
  | localVariable
  | localNamed (name : String)
deriving Repr, DecidableEq

def Part.label : Part → String
  | sourceFile => "source file"
  | thisClass => "this_class"
  | superClass => "super_class"
  | interface number => "interface " ++ toString number
  | field number => "field " ++ toString number
  | method number => "method " ++ toString number
  | methodNamed name => "method " ++ name
  | parameter number => "parameter " ++ toString number
  | exception number => "exception " ++ toString number
  | localVariable => "local variable"
  | localNamed name => "local variable " ++ name

/-! ### Items -/

inductive Item where
  /-- Text written as it is. -/
  | text (text : String)
  | link (kind : LinkKind) (value : String)
  /-- A name that is defined here. Every definition is also a reference. -/
  | defines (name : String)
  /-- A name that is used here. -/
  | uses (name : String)
  /-- A pool index whose value is shown, or a slot number taken for one. -/
  | mark (index : Index)
deriving Repr, DecidableEq

namespace Item

def write (links : Linker) : Item → String
  | text s => s
  | link kind value => links.link kind value
  | _ => ""

def definition? : Item → Option String
  | defines name => some name
  | _ => none

def reference? : Item → Option String
  | defines name | uses name => some name
  | _ => none

def mark? : Item → Option Index
  | mark index => some index
  | _ => none

end Item

/-- A walk over a part of a class. -/
abbrev Walk := Except Error

namespace Walk

def fail (fault : ModelFault) : Walk α := .error fault.error

/-- A walk whose failures arose in the given part. -/
def within (part : Part) (w : Walk α) : Walk α := w.mapError (·.under part.label)

/-- A linked definition. -/
def definition (name : String) : List Item := [.link .definition name, .defines name]

/-- A linked use. -/
def reference (name : String) : List Item := [.link .reference name, .uses name]

def modifiers (access : AccessFlags) (carrier : AccessFlags.Carrier) : List Item :=
  let words := access.spell carrier
  if words = "" then [] else [.text words, .text " "]

variable (pool : Pool)

def utf8 (i : Index) : Walk String :=
  match pool.utf8? i with
  | some s => .ok s
  | none => fail (.notUtf8 i)

/-- The name of the class at an index, with slashes, and the marks of reading it. -/
def className (i : Index) : Walk (String × List Item) :=
  match pool.get? i with
  | some (.classRef name) => do
    let text ← utf8 pool name
    return (text, [.mark i, .mark name])
  | _ => fail (.notClass i)

/-- A linked use of the class at an index, after some text. -/
def classUse (before : String) (i : Index) : Walk (List Item) := do
  let (name, marks) ← className pool i
  return marks ++ .text before :: reference (Spelling.className true name)

/-! ### Local variables -/

/-- A row of a table of local variables. The receiver is marked and not shown. -/
def localRow (l : Local) : Walk (List Item) := do
  let name ← within .localVariable (utf8 pool l.name)
  let text ← within (.localNamed name) (utf8 pool l.descriptor)
  let marks := [Item.mark l.slot, .mark l.name, .mark l.descriptor]
  if name = "this" then return marks
  else match Spelling.type true text with
    | .error fault => fail (.localVariable name fault)
    | .ok type =>
      return marks ++ [.text "\t\t", .text type, .text " "] ++ definition name ++ [.text "\n"]

def locals (code : Code) : Walk (List Item) :=
  List.flatten <$> code.localTables.flatten.mapM (localRow pool)

/-! ### Members -/

def field (f : Member) : Walk (List Item) := do
  let name ← utf8 pool f.name
  let text ← utf8 pool f.descriptor
  match Spelling.type true text with
  | .error fault => fail (.field name fault)
  | .ok type =>
    return [.mark f.name, .mark f.descriptor, .text "\t"] ++ modifiers f.access .field ++
      [.text type, .text " "] ++ definition name ++ [.text "\n"]

/-- The name of a parameter; index zero stands for no name. -/
def parameterName (number : Nat) (p : Parameter) : Walk String :=
  if p.name = 0 then return "" else within (.parameter number) (utf8 pool p.name)

/-- The names of a method's parameters and the marks of reading them. Recorded names
count only when there are as many as the descriptor has parameters; a parameter
without a name has the empty one. -/
def parameterNames (m : Member) (count : Nat) : Walk (List String × List Item) :=
  match Attribute.find? pool "MethodParameters" m.attributes with
  | none => return (List.replicate count "", [])
  | some a =>
    match a.parameters? with
    | some rows =>
      if rows.length = count then do
        let names ← rows.zipIdx.mapM fun (p, number) => parameterName pool number p
        let marks := (rows.filter (·.name ≠ 0)).map fun p => Item.mark p.name
        return (names, .mark a.name :: marks)
      else return (List.replicate count "", [.mark a.name])
    | none => return (List.replicate count "", [.mark a.name])

/-- A parameter: its type and, when it has one, its name. -/
def parameter (type name : String) : List Item :=
  if name = "" then [.text type] else [.text (type ++ " " ++ name), .uses type, .defines name]

/-- Groups of items with a separator between each two. -/
def separated (separator : Item) : List (List Item) → List Item
  | [] => []
  | [group] => group
  | group :: rest => group ++ separator :: separated separator rest

/-- The classes of an `Exceptions` attribute. -/
def throws (classes : List Index) : Walk (List Item) :=
  List.flatten <$> classes.zipIdx.mapM fun (i, number) =>
    within (.exception number) (classUse pool (if number = 0 then " throws " else ", ") i)

def method (m : Member) : Walk (List Item) := do
  let name ← utf8 pool m.name
  let text ← utf8 pool m.descriptor
  match Spelling.signature true text with
  | .error fault => fail (.method name fault)
  | .ok (result, types) =>
    within (.methodNamed name) do
      let (names, marks) ← parameterNames pool m types.length
      let thrown ← (m.attributes.filterMap (·.exceptions?)).mapM (throws pool)
      let locals ← (m.attributes.filterMap (·.code?)).mapM (locals pool)
      return [.mark m.name, .mark m.descriptor] ++ marks ++ [.text "\t"] ++
        modifiers m.access .method ++ [.text result, .text " "] ++ definition name ++ [.text "("] ++
        separated (.text ", ") (List.zipWith parameter types names) ++ [.text ")"] ++
        thrown.flatten ++ [.text "\n"] ++ locals.flatten

/-! ### The class -/

/-- What stands for the source file of a class that names none. -/
def unknownSource : String := "<Unknown>"

def sourceFile (c : ClassModel) : Walk (List Item) := do
  let (name, marks) ← match c.attribute? "SourceFile" with
    | none => pure (unknownSource, [])
    | some a =>
      match a.sourceFile? with
      | none => fail .sourceFile
      | some i => do
        let name ← within .sourceFile (utf8 c.pool i)
        pure (name, [Item.mark a.name, .mark i])
  return marks ++ [.link .path name, .defines name, .text "\n"]

/-- The part of a dotted name before its last dot, empty if it has none, and the rest. -/
def splitName (name : String) : String × String :=
  let cs := name.toList.reverse
  let simple := (cs.takeWhile (· != '.')).reverse
  let package := ((cs.dropWhile (· != '.')).drop 1).reverse
  (String.ofList package, String.ofList simple)

def packageLine (package : String) : List Item :=
  if package = "" then []
  else [.text "package ", .link .reference package, .defines package, .text "\n"]

def header (c : ClassModel) : Walk (List Item) := do
  let (name, marks) ← within .thisClass (className c.pool c.this)
  let (package, simple) := splitName (Spelling.className false name)
  let extended ←
    if c.super = 0 then pure [] else within .superClass (classUse c.pool " extends " c.super)
  let implemented ← c.interfaces.zipIdx.mapM fun (i, number) =>
    within (.interface number)
      (classUse c.pool (if number = 0 then " implements " else " ") i)
  return marks ++ packageLine package ++ modifiers c.access .type ++ definition simple ++
    extended ++ implemented.flatten ++ [.text " \x7b\n"]

/-- All items of a class, in order. -/
def items (c : ClassModel) : Walk (List Item) := do
  let source ← sourceFile c
  let header ← header c
  let locals ← (c.attributes.filterMap (·.code?)).mapM (locals c.pool)
  let fields ← c.fields.zipIdx.mapM fun (f, number) => within (.field number) (field c.pool f)
  let methods ← c.methods.zipIdx.mapM fun (m, number) => within (.method number) (method c.pool m)
  return source ++ header ++ locals.flatten ++ fields.flatten ++ methods.flatten ++ [.text "\x7d\n"]

end Walk

/-! ### The rendition -/

structure Rendition where
  text : String
  definitions : List String
  references : List String
  marks : Marks
deriving Repr, DecidableEq

def render (links : Linker) (c : ClassModel) : Walk Rendition := do
  let items ← Walk.items c
  return {
    text := String.join (items.map (Item.write links))
    definitions := items.filterMap Item.definition?
    references := items.filterMap Item.reference?
    marks := (Marks.none c.pool.count).markAll (items.filterMap Item.mark?) }

end ClassAtlas.Xref
