import ClassAtlas.Web.Url

/-!
Queries: names with values, of which a request asks for the first of a name. A pair that
holds a semicolon or a malformed escape is left out.
-/
namespace ClassAtlas.Web

abbrev Query := List (Bytes × Bytes)

namespace Query

/-- Reads one pair. One without an equals sign has an empty value. -/
def pair? (text : Bytes) : Option (Bytes × Bytes) :=
  if text.isEmpty || text.any (isChar ';') then none
  else
    let (name, value) := cut (isChar '=') text
    match unescape .query name, unescape .query (value.getD []) with
    | .ok name, .ok value => some (name, value)
    | _, _ => none

def parse (text : Bytes) : Query := (pieces (isChar '&') text).filterMap pair?

/-- The first value of a name; empty when there is none. -/
def get (q : Query) (name : String) : Bytes := (q.lookup (bytesOf name)).getD []

end Query
end ClassAtlas.Web
