import ClassAtlas.Text.References
import ClassAtlas.Text.Script

/-!
Marked-up text without its markup: tags, comments and declarations are dropped,
line ends are made uniform and character references are replaced. The contents of
some elements are taken as they stand, without a look at references or inner tags.
A tag that the text breaks off in is dropped with it.
-/
namespace ClassAtlas.Text.PlainText
open Script

/-! ### Tags -/

/-- Where a scan of a tag's attributes stands. -/
inductive TagState where
  | beforeKey | key | afterKey | beforeValue
  | quoted (quote : Char)
  | unquoted
deriving Repr, DecidableEq

/-- The state after a character between attributes; none when the tag ends. -/
def beforeKey (c : Char) : Option TagState :=
  if c = '>' then none
  else if isTagBlank c || c = '/' then some .beforeKey
  else some .key

def afterKey (c : Char) : Option TagState :=
  if isTagBlank c then some .afterKey
  else if c = '=' then some .beforeValue
  else beforeKey c

def tagNext (s : TagState) (c : Char) : Option TagState :=
  match s with
  | .beforeKey => beforeKey c
  | .key => if endsName c || c = '=' then afterKey c else some .key
  | .afterKey => afterKey c
  | .beforeValue =>
    if c = '>' then none
    else if isTagBlank c then some .beforeValue
    else if c = '\'' || c = '"' then some (.quoted c)
    else some .unquoted
  | .quoted q => if c = q then some .beforeKey else some (.quoted q)
  | .unquoted =>
    if c = '>' then none else if isTagBlank c then some .beforeKey else some .unquoted

/-- What follows a tag, given the text behind its name; none when it does not end. -/
def skipTag : TagState → List Char → Option (List Char)
  | _, [] => none
  | s, c :: rest =>
    match tagNext s c with
    | none => some rest
    | some s => skipTag s rest

/-- What follows the next `>`. -/
def skipToAngle : List Char → Option (List Char)
  | [] => none
  | c :: rest => if c = '>' then some rest else skipToAngle rest

/-! ### Comments -/

/-- Where a scan of a comment stands: behind some dashes, perhaps still at its
beginning, or behind two dashes and an exclamation mark. -/
inductive CommentState where
  | dashes (count : Nat) (beginning : Bool)
  | bang
deriving Repr, DecidableEq

def commentNext (s : CommentState) (c : Char) : Option CommentState :=
  match s with
  | .dashes n beginning =>
    if c = '-' then some (.dashes (n + 1) beginning)
    else if c = '>' && (2 ≤ n || beginning) then none
    else if c = '!' && 2 ≤ n then some .bang
    else some (.dashes 0 false)
  | .bang =>
    if c = '>' then none
    else if c = '-' then some (.dashes 1 false)
    else some (.dashes 0 false)

def skipComment : CommentState → List Char → Option (List Char)
  | _, [] => none
  | s, c :: rest =>
    match commentNext s c with
    | none => some rest
    | some s => skipComment s rest

/-! ### Elements whose contents are taken as they stand -/

inductive RawElement where
  /-- Everything up to the end of the text. -/
  | plaintext
  | script
  /-- Up to the closing tag; character references count in some of them. -/
  | named (name : List Char) (references : Bool)
deriving Repr, DecidableEq

def rawElement? (name : List Char) : Option RawElement :=
  let name := String.ofList (name.map Char.toLower)
  if name = "plaintext" then some .plaintext
  else if name = "script" then some .script
  else if ["iframe", "noembed", "noframes", "noscript", "style", "xmp"].contains name then
    some (.named name.toList false)
  else if ["textarea", "title"].contains name then some (.named name.toList true)
  else none

/-! ### Text -/

/-- Every line ends with a line feed alone. -/
def uniformLines : List Char → List Char
  | [] => []
  | '\r' :: '\n' :: rest => '\n' :: uniformLines rest
  | c :: rest => (if c = '\r' then '\n' else c) :: uniformLines rest

def clean (cs : List Char) : List Char := References.unescape (uniformLines cs)

/-- The contents of a raw element. NUL becomes U+FFFD. -/
def cleanRaw (references : Bool) (cs : List Char) : List Char :=
  let cs := (uniformLines cs).map fun c => if c.toNat = 0 then Units.replacement else c
  if references then References.unescape cs else cs

/-- Whether a `<` before this text starts markup. -/
def opensMarkup : List Char → Bool
  | c :: _ => c.isAlpha || c = '/' || c = '!' || c = '?'
  | [] => false

/-- The text up to the next markup, and what follows. -/
def textRun : List Char → List Char × List Char
  | [] => ([], [])
  | c :: rest =>
    if c = '<' && opensMarkup rest then ([], c :: rest)
    else
      let (run, rest) := textRun rest
      (c :: run, rest)

/-- What a piece of markup leads to. -/
inductive Next where
  /-- The text breaks off. -/
  | done
  /-- The text breaks off in what is no markup after all. -/
  | text (text : List Char)
  | goOn (rest : List Char)
  | raw (element : RawElement) (rest : List Char)

def Next.ofRest : Option (List Char) → Next
  | some rest => .goOn rest
  | none => .done

/-- The markup behind a `<`. -/
def markup : List Char → Next
  | ['/'] => .text ['<', '/']
  | '/' :: '>' :: rest => .goOn rest
  | '/' :: c :: rest =>
    if c.isAlpha then .ofRest (skipTag .beforeKey (rest.dropWhile (!endsName ·)))
    else .ofRest (skipToAngle (c :: rest))
  | '!' :: '-' :: '-' :: rest => .ofRest (skipComment (.dashes 0 true) rest)
  | c :: rest =>
    if c.isAlpha then
      let name := c :: rest.takeWhile (!endsName ·)
      match skipTag .beforeKey (rest.dropWhile (!endsName ·)), rawElement? name with
      | none, _ => .done
      | some rest, some element => .raw element rest
      | some rest, none => .goOn rest
    else .ofRest (skipToAngle rest)
  | [] => .done

/-- The contents of a raw element, cleaned, and what follows them. -/
def rawContents : RawElement → List Char → List Char × List Char
  | .plaintext, cs => (cleanRaw false cs, [])
  | .script, cs =>
    let (body, rest) := script .plain cs
    (cleanRaw false body, rest)
  | .named name references, cs =>
    let (body, rest) := element name cs
    (cleanRaw references body, rest)

/-- The text outside markup; `fuel` bounds the pieces of markup. -/
def strip : Nat → List Char → List Char
  | 0, _ => []
  | fuel + 1, cs =>
    let (run, rest) := textRun cs
    clean run ++ match rest with
      | [] => []
      | _ :: rest =>
        match markup rest with
        | .done => []
        | .text t => t
        | .goOn rest => strip fuel rest
        | .raw element rest =>
          let (body, rest) := rawContents element rest
          body ++ strip fuel rest

end PlainText

def plainText (s : String) : String := String.ofList (PlainText.strip (s.toList.length + 1) s.toList)

end ClassAtlas.Text
