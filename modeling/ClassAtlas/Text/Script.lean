/-!
Where the contents of a raw element end. Most end at their own closing tag; a script
may also hide its closing tag in a comment, and inside such a comment an inner script
element hides one closing tag more.
-/
namespace ClassAtlas.Text.Script

/-- White space between the parts of a tag. -/
def isTagBlank (c : Char) : Bool := c = ' ' || c = '\n' || c = '\r' || c = '\t' || c.toNat = 12

/-- Whether a character ends the name of a tag. -/
def endsName (c : Char) : Bool := isTagBlank c || c = '/' || c = '>'

/-- Whether a text starts with a tag name, in either case, and what ends it. -/
def startsWithName : (name : List Char) → List Char → Bool
  | [], c :: _ => endsName c
  | n :: name, c :: rest => (c = n || c = n.toUpper) && startsWithName name rest
  | _, [] => false

/-- Whether what follows a `<` is the closing tag of the element. -/
def closes (name : List Char) : List Char → Bool
  | '/' :: rest => startsWithName name rest
  | _ => false

/-- The contents up to the closing tag, and the text from there. -/
def element (name : List Char) : List Char → List Char × List Char
  | [] => ([], [])
  | c :: rest =>
    if c = '<' && closes name rest then ([], c :: rest)
    else
      let (body, rest) := element name rest
      (c :: body, rest)

/-- How far a script is inside a comment. -/
inductive State where
  | plain | less | bang | bangDash
  | comment | commentDash | commentDashDash | commentLess
  | inner | innerDash | innerDashDash | innerLess
deriving Repr, DecidableEq

def scriptName : List Char := ['s', 'c', 'r', 'i', 'p', 't']

/-- The state after a character of plain script. -/
def plainNext (c : Char) : State := if c = '<' then .less else .plain

def innerNext (c : Char) : State :=
  if c = '-' then .innerDash else if c = '<' then .innerLess else .inner

/-- The state after a character, given what follows it. -/
def next (s : State) (c : Char) (rest : List Char) : State :=
  match s with
  | .plain => plainNext c
  | .less => if c = '!' then .bang else plainNext c
  | .bang => if c = '-' then .bangDash else plainNext c
  | .bangDash => if c = '-' then .commentDashDash else plainNext c
  | .comment => if c = '-' then .commentDash else if c = '<' then .commentLess else .comment
  | .commentDash =>
    if c = '-' then .commentDashDash else if c = '<' then .commentLess else .comment
  | .commentDashDash =>
    if c = '-' then .commentDashDash else if c = '<' then .commentLess
    else if c = '>' then .plain else .comment
  | .commentLess =>
    if c = '/' then .comment
    else if c.isAlpha then
      if startsWithName scriptName (c :: rest) then .inner else .comment
    else plainNext c
  | .inner => innerNext c
  | .innerDash =>
    if c = '-' then .innerDashDash else if c = '<' then .innerLess else .inner
  | .innerDashDash =>
    if c = '-' then .innerDashDash else if c = '<' then .innerLess
    else if c = '>' then .plain else .inner
  | .innerLess =>
    if c = '/' then if startsWithName scriptName rest then .comment else .inner
    else innerNext c

/-- Whether a closing tag counts in a state. -/
def open? : State → Bool
  | .inner | .innerDash | .innerDashDash | .innerLess => false
  | _ => true

/-- The script up to its closing tag, and the text from there. -/
def script : State → List Char → List Char × List Char
  | _, [] => ([], [])
  | s, c :: rest =>
    if c = '<' && open? s && closes scriptName rest then ([], c :: rest)
    else
      let (body, rest') := script (next s c rest) rest
      (c :: body, rest')

end ClassAtlas.Text.Script
