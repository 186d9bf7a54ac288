import ClassAtlas.Index.Document
import ClassAtlas.Json.Parser

/-!
The JSON text of a document and of a posting list. It spells characters, so that a path is
kept as it is shown: what is read back is the path as mended. Reading back looks a document's
members up without regard to case, passes over members it does not know, and takes
`null` for nothing said. Of several faults the first in the text is reported.
-/
namespace ClassAtlas.Index
open Json

/-- The type that a JSON value had to fit. -/
inductive Slot where
  | document
  | postings
  | path
  | textMember (name : String)
  | listMember (name : String)
  | elementOf (name : String)
deriving Repr, DecidableEq

/-- Why a stored text cannot be read. -/
inductive RecordFault where
  | json (fault : Json.Fault)
  | type (found : String) (slot : Slot)
deriving Repr, DecidableEq

def Slot.phrase : Slot → String
  | document => "Go value of type index.Document"
  | postings => "Go value of type []string"
  | path => "Go value of type string"
  | textMember name | elementOf name => "Go struct field Document." ++ name ++ " of type string"
  | listMember name => "Go struct field Document." ++ name ++ " of type []string"

def RecordFault.message : RecordFault → String
  | json fault => fault.message
  | type found slot => "json: cannot unmarshal " ++ found ++ " into " ++ slot.phrase

/-- What a message calls a value. -/
def kindOf : Value → String
  | .null => "null"
  | .bool _ => "bool"
  | .number _ => "number"
  | .string _ => "string"
  | .array _ => "array"
  | .object _ => "object"

/-- A value and the first fault met while reading it. -/
structure Reading (α : Type) where
  value : α
  fault : Option RecordFault

namespace Reading

def fine (a : α) : Reading α := ⟨a, none⟩

def toExcept (r : Reading α) : Except RecordFault α :=
  match r.fault with
  | none => .ok r.value
  | some fault => .error fault

end Reading

/-- A string; `null` leaves what was there before. -/
def readText (slot : Slot) (before : String) : Value → Reading String
  | .null => .fine before
  | .string s => .fine s
  | v => ⟨before, some (.type (kindOf v) slot)⟩

/-- The strings of a list, over those that were there before. -/
def readTexts (slot : Slot) : (before : List String) → List Value → Reading (List String)
  | _, [] => .fine []
  | before, v :: rest =>
    let first := readText slot (before.headD "") v
    let others := readTexts slot before.tail rest
    ⟨first.value :: others.value, first.fault <|> others.fault⟩

/-- A list of strings; `null` makes it absent. -/
def readList (list element : Slot) (before : Option (List String)) :
    Value → Reading (Option (List String))
  | .null => .fine none
  | .array vs =>
    let r := readTexts element (before.getD []) vs
    ⟨some r.value, r.fault⟩
  | v => ⟨before, some (.type (kindOf v) list)⟩

/-! ### Documents -/

/-- A letter without its case: the long s and the sign for kelvin fold to s and k. -/
def foldChar (c : Char) : Char :=
  if c.toNat = 0x17F then 's' else if c.toNat = 0x212A then 'k' else c.toLower

def foldName (s : String) : String := String.ofList (s.toList.map foldChar)

/-- Reads a member into a document. -/
def readMember (d : Document) (name : String) (v : Value) : Reading Document :=
  match foldName name with
  | "path" =>
    let r := readText (.textMember "path") d.path.shown v
    ⟨{ d with path := r.value }, r.fault⟩
  | "digest" =>
    let r := readText (.textMember "digest") d.digest v
    ⟨{ d with digest := r.value }, r.fault⟩
  | "text" =>
    let r := readText (.textMember "text") d.text v
    ⟨{ d with text := r.value }, r.fault⟩
  | "definitions" =>
    let r := readList (.listMember "definitions") (.elementOf "definitions") d.definitions v
    ⟨{ d with definitions := r.value }, r.fault⟩
  | "references" =>
    let r := readList (.listMember "references") (.elementOf "references") d.references v
    ⟨{ d with references := r.value }, r.fault⟩
  | "literals" =>
    let r := readList (.listMember "literals") (.elementOf "literals") d.literals v
    ⟨{ d with literals := r.value }, r.fault⟩
  | _ => .fine d

def readMembers : Document → List (String × Value) → Reading Document
  | d, [] => .fine d
  | d, (name, v) :: rest =>
    let first := readMember d name v
    let others := readMembers first.value rest
    ⟨others.value, first.fault <|> others.fault⟩

def Document.ofJson : Value → Reading Document
  | .null => .fine .empty
  | .object ms => readMembers .empty ms
  | v => ⟨.empty, some (.type (kindOf v) .document)⟩

def Document.toJson (d : Document) : Value :=
  .object [("path", .string d.path.shown), ("digest", .string d.digest), ("text", .string d.text),
    ("definitions", .strings? d.definitions), ("references", .strings? d.references),
    ("literals", .strings? d.literals)]

/-- Reads a record with a reader of values. -/
def readRecord (read : Value → Reading α) (record : RawText) : Except RecordFault α :=
  match parse record.shown with
  | .ok v => (read v).toExcept
  | .error fault => .error (.json fault)

def Document.ofRecord (record : RawText) : Except RecordFault Document := readRecord Document.ofJson record

def Document.toRecord (d : Document) : RawText := d.toJson.toLine

/-- The paths under a term. `null` is read as no list, which is not the same as an empty one. -/
abbrev Postings := Option (List RawText)

namespace Postings

def ofJson (v : Value) : Reading Postings :=
  let r := readList .postings .path none v
  ⟨r.value.map (List.map .ofString), r.fault⟩

def toJson (ps : Postings) : Value := .strings? (ps.map (List.map RawText.shown))

def ofRecord (record : RawText) : Except RecordFault Postings := readRecord ofJson record

def toRecord (ps : Postings) : RawText := ps.toJson.toLine

end Postings

end ClassAtlas.Index
