import ClassAtlas.Text.Markup

/-!
Links of rendered text. A link shows a value and asks the search page, whose address
starts with the linker's stem, for the same value; a definition also names the place
where it stands.
-/
namespace ClassAtlas.Xref

/-- What a link asks for and what it marks. -/
inductive LinkKind where
  /-- A file path. -/
  | path
  /-- A use of a definition. -/
  | reference
  /-- The place of a definition. -/
  | definition
deriving Repr, DecidableEq

/-- The query parameter that carries the value. -/
def LinkKind.parameter : LinkKind → String
  | path => "path"
  | reference | definition => "defs"

/-- The start of every address, up to and including the question mark. -/
structure Linker where
  stem : String
deriving Repr, DecidableEq

namespace Linker

/-- The address a link leads to, before it is escaped. -/
def address (l : Linker) (kind : LinkKind) (value : String) : String :=
  l.stem ++ kind.parameter ++ "=" ++ value

/-- The attributes that mark a definition. An empty name marks nothing. -/
def anchorName (kind : LinkKind) (value : String) : String :=
  if kind = .definition ∧ value ≠ "" then
    "class=\"d\" name=\"" ++ Text.Markup.escape value ++ "\" "
  else ""

def link (l : Linker) (kind : LinkKind) (value : String) : String :=
  "<a " ++ anchorName kind value ++ "href=\"" ++ Text.Markup.escape (l.address kind value) ++ "\">" ++
    Text.Markup.escape value ++ "</a>"

end Linker
end ClassAtlas.Xref
