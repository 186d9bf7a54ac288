import ClassAtlas.Error
import ClassAtlas.Text.Quoted

/-!
Descriptors, the written form of field and method types. A field descriptor is up
to 255 opening brackets and then a letter for a primitive type or a class name
between `L` and `;`. A method descriptor is the field descriptors of the parameters
in parentheses, then the descriptor of the result, or `V` for none.
-/
namespace ClassAtlas

inductive Primitive where
  | byte | char | double | float | int | long | short | boolean
deriving Repr, DecidableEq

namespace Primitive

def letter : Primitive → Char
  | byte => 'B'
  | char => 'C'
  | double => 'D'
  | float => 'F'
  | int => 'I'
  | long => 'J'
  | short => 'S'
  | boolean => 'Z'

def name : Primitive → String
  | byte => "byte"
  | char => "char"
  | double => "double"
  | float => "float"
  | int => "int"
  | long => "long"
  | short => "short"
  | boolean => "boolean"

def ofLetter? (c : Char) : Option Primitive :=
  [byte, char, double, float, int, long, short, boolean].find? (·.letter == c)

theorem ofLetter?_letter (p : Primitive) : ofLetter? p.letter = some p := by
  cases p <;> rfl

end Primitive

/-- What an array type is an array of. A class goes by its name with slashes. -/
inductive Element where
  | primitive (type : Primitive)
  | object (name : String)
deriving Repr, DecidableEq

/-- A field type: an element and the number of array dimensions around it. -/
structure FieldType where
  depth : Nat
  element : Element
deriving Repr, DecidableEq

/-- A method type. The result is absent for a method that returns nothing. -/
structure MethodType where
  parameters : List FieldType
  result : Option FieldType
deriving Repr, DecidableEq

namespace Descriptor

/-- Why a text is no descriptor. -/
inductive Fault where
  | field (text : String)
  | method (text : String)
deriving Repr, DecidableEq

def Fault.error : Fault → Error
  | field text => Sentinel.invalidDescriptor.saying ("field descriptor " ++ Text.Quoted.encode text)
  | method text => Sentinel.invalidDescriptor.saying ("method descriptor " ++ Text.Quoted.encode text)

def Fault.message (fault : Fault) : String := fault.error.message

/-- The greatest number of array dimensions. -/
def maxDepth : Nat := 255

/-- An element and what follows it. -/
def element? : List Char → Option (Element × List Char)
  | [] => none
  | c :: rest =>
    match Primitive.ofLetter? c with
    | some p => some (.primitive p, rest)
    | none =>
      if c = 'L' then
        let name := rest.takeWhile (· != ';')
        match rest.dropWhile (· != ';') with
        | [] => none
        | _ :: rest' => if name.isEmpty then none else some (.object (String.ofList name), rest')
      else none

/-- A field type and what follows it. -/
def fieldType? (cs : List Char) : Option (FieldType × List Char) :=
  let depth := (cs.takeWhile (· == '[')).length
  if depth ≤ maxDepth then
    (element? (cs.dropWhile (· == '['))).map fun (e, rest) => (⟨depth, e⟩, rest)
  else none

theorem length_dropWhile_le (p : Char → Bool) (cs : List Char) :
    (cs.dropWhile p).length ≤ cs.length :=
  (List.dropWhile_sublist p).length_le

theorem element?_length {cs rest : List Char} {e : Element} (h : element? cs = some (e, rest)) :
    rest.length < cs.length := by
  cases cs with
  | nil => simp [element?] at h
  | cons c cs =>
    have hd := length_dropWhile_le (· != ';') cs
    simp only [element?] at h
    split at h
    · simp only [Option.some.injEq, Prod.mk.injEq] at h
      simp [← h.2]
    · split at h
      · split at h
        · simp at h
        · rename_i hdrop
          rw [hdrop, List.length_cons] at hd
          split at h
          · simp at h
          · simp only [Option.some.injEq, Prod.mk.injEq] at h
            rw [h.2] at hd
            simp only [List.length_cons]
            omega
      · simp at h

/-- A field type takes at least one character. -/
theorem fieldType?_length {cs rest : List Char} {t : FieldType}
    (h : fieldType? cs = some (t, rest)) : rest.length < cs.length := by
  simp only [fieldType?] at h
  split at h
  · simp only [Option.map_eq_some_iff] at h
    obtain ⟨⟨e, r⟩, he, hr⟩ := h
    simp only [Prod.mk.injEq] at hr
    have h1 := element?_length he
    have h2 := length_dropWhile_le (· == '[') cs
    rw [hr.2] at h1
    omega
  · simp at h

/-- The parameter types up to the closing parenthesis, and what follows it. -/
def parameters? (cs : List Char) : Option (List FieldType × List Char) :=
  match cs with
  | [] => none
  | ')' :: rest => some ([], rest)
  | c :: rest =>
    match h : fieldType? (c :: rest) with
    | none => none
    | some (t, rest') =>
      have := fieldType?_length h
      (parameters? rest').map fun (ts, rest) => (t :: ts, rest)
termination_by cs.length
decreasing_by
  simp only [List.length_cons] at this ⊢
  omega

/-- A result type that ends the text. -/
def result? : List Char → Option (Option FieldType)
  | ['V'] => some none
  | cs =>
    match fieldType? cs with
    | some (t, []) => some (some t)
    | _ => none

end Descriptor

namespace FieldType

def parse (text : String) : Except Descriptor.Fault FieldType :=
  match Descriptor.fieldType? text.toList with
  | some (t, []) => .ok t
  | _ => .error (.field text)

/-- The descriptor of a field type. -/
def descriptor (t : FieldType) : List Char :=
  List.replicate t.depth '[' ++
    match t.element with
    | .primitive p => [p.letter]
    | .object name => 'L' :: name.toList ++ [';']

end FieldType

namespace MethodType

def parse? : List Char → Option MethodType
  | '(' :: rest =>
    match Descriptor.parameters? rest with
    | some (ts, rest) => (Descriptor.result? rest).map (⟨ts, ·⟩)
    | none => none
  | _ => none

def parse (text : String) : Except Descriptor.Fault MethodType :=
  match parse? text.toList with
  | some t => .ok t
  | none => .error (.method text)

end MethodType
end ClassAtlas
