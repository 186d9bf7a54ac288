import ClassAtlas.Json.Value
import ClassAtlas.Text.PlainText
import ClassAtlas.Xref.Analysis

/-!
Reports of an analysis: its text with or without the links, all of it as JSON, or one
of its lists with a line for each entry. A list that is absent is reported as an empty
one, in JSON too.
-/
namespace ClassAtlas.Report
open Xref

inductive Format where
  | html | text | json | defs | refs | literals
deriving Repr, DecidableEq

namespace Format

def all : List Format := [html, text, json, defs, refs, literals]

def name : Format → String
  | html => "html"
  | text => "text"
  | json => "json"
  | defs => "defs"
  | refs => "refs"
  | literals => "literals"

/-- A name that belongs to no format. -/
structure Unknown where
  name : String
deriving Repr, DecidableEq

def Unknown.message (u : Unknown) : String :=
  "unknown format: " ++ u.name ++ " (expected one of [" ++ " ".intercalate (all.map Format.name) ++ "])"

def ofName (s : String) : Except Unknown Format :=
  match all.find? (·.name == s) with
  | some f => .ok f
  | none => .error ⟨s⟩

end Format

/-- What a report is written from. A list that was never made is absent. -/
structure Result where
  text : String
  definitions : Option (List String)
  references : Option (List String)
  literals : Option (List String)
deriving Repr, DecidableEq

namespace Result

def ofAnalysis (a : Analysis) : Result :=
  ⟨a.text, some a.definitions, some a.references, some a.literals⟩

/-- An empty list in place of each absent one. -/
def filled (r : Result) : Result where
  text := r.text
  definitions := some (r.definitions.getD [])
  references := some (r.references.getD [])
  literals := some (r.literals.getD [])

def toJson (r : Result) : Json.Value :=
  .object [("text", .string r.text), ("definitions", .strings? r.definitions),
    ("references", .strings? r.references), ("literals", .strings? r.literals)]

end Result

def tokenLines (tokens : List String) : String := String.join (tokens.map (· ++ "\n"))

def write (r : Result) : Format → String
  | .html => r.text
  | .text => Text.plainText r.text
  | .json => r.filled.toJson.toLines ++ "\n"
  | .defs => tokenLines (r.definitions.getD [])
  | .refs => tokenLines (r.references.getD [])
  | .literals => tokenLines (r.literals.getD [])

/-- The reports of several results, one after the other. -/
def writeAll (f : Format) (rs : List Result) : String := String.join (rs.map (write · f))

end ClassAtlas.Report
