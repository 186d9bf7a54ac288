import ClassAtlas.Descriptor

/-!
Type and class names as source text spells them: dots between the parts of a class
name, brackets after an array's element, and, in the short form, no package on the
members of `java.lang`.
-/
namespace ClassAtlas.Spelling

/-- A class name with dots in place of slashes. -/
def dotted (name : String) : String := String.ofList (name.toList.map fun c => if c = '/' then '.' else c)

def javaLang : String := "java.lang."

/-- A dotted class name. The short form drops `java.lang` from its direct members. -/
def className (short : Bool) (name : String) : String :=
  let full := (dotted name).toList
  let package := javaLang.toList
  if short && package.isPrefixOf full && !(full.drop package.length).contains '.' then
    String.ofList (full.drop package.length)
  else String.ofList full

def fieldType (short : Bool) (t : FieldType) : String :=
  let element := match t.element with
    | .primitive p => p.name
    | .object name => className short name
  element ++ String.join (List.replicate t.depth "[]")

/-- The text of a field descriptor, or of `V` alone. -/
def type (short : Bool) (descriptor : String) : Except Descriptor.Fault String :=
  if descriptor = "V" then .ok "void" else fieldType short <$> FieldType.parse descriptor

/-- The texts of a method descriptor's result and parameters. -/
def signature (short : Bool) (descriptor : String) :
    Except Descriptor.Fault (String × List String) := do
  let t ← MethodType.parse descriptor
  let result := match t.result with
    | some r => fieldType short r
    | none => "void"
  return (result, t.parameters.map (fieldType short))

/-- The text of the name in a class constant: an array class is named by its descriptor. -/
def classConstant (name : String) : Except Descriptor.Fault String :=
  match name.toList with
  | '[' :: _ => type false name
  | _ => .ok (className false name)

end ClassAtlas.Spelling
