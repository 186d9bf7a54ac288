import ClassAtlas.Index.Document
import ClassAtlas.Web.Percent

/-!
The pages of the web server. Text is escaped for its place: as text or a title, or as a
link, in which bytes that an address does not allow are percent escapes, and a path that
looks like the scheme of an unsafe address is replaced.
-/
namespace ClassAtlas.Web.Page

def escapeChar (c : Char) : List Char :=
  match c with
  | '\x00' => ['\ufffd']
  | '"' => "&#34;".toList
  | '&' => "&amp;".toList
  | '\'' => "&#39;".toList
  | '+' => "&#43;".toList
  | '<' => "&lt;".toList
  | '>' => "&gt;".toList
  | c => [c]

/-- Text, a title, or the value of an attribute in quotes. -/
def escape (s : String) : String := String.ofList (s.toList.flatMap escapeChar)

/-! ### Links -/

/-- Bytes that an address on a page shows as they are. -/
def isLinkByte (b : UInt8) : Bool := isUnreserved b || isOneOf "!#$&*+,/:;=?@[]" b

/-- An address with other bytes escaped. Escapes that it has are kept. -/
def normalize : Bytes → Bytes
  | [] => []
  | b :: rest =>
    let isEscape := isChar '%' b && match rest with
      | x :: y :: _ => (hexValue? x).isSome && (hexValue? y).isSome
      | _ => false
    (if isLinkByte b || isEscape then [b] else escapeByte Bytes.hexDigit b) ++ normalize rest

/-- Lower case, with the long s taken for an s. -/
def foldByteText (s : Bytes) : String :=
  String.ofList ((Text.Utf8.decodeLossy s).toList.map fun c => if c.toNat = 0x17F then 's' else c.toLower)

/-- Whether what stands before a colon, if no slash does, is a scheme that is safe to follow. -/
def isSafe (address : Bytes) : Bool :=
  let scheme := address.takeWhile (!isChar ':' ·)
  scheme.length == address.length || scheme.any (isChar '/') ||
    ["http", "https", "mailto"].contains (foldByteText scheme)

/-- A part of a link. -/
def linkPart (address : Bytes) : String :=
  escape (Text.Utf8.decodeLossy (normalize (if isSafe address then address else bytesOf "#ZgotmplZ")))

/-! ### Pages -/

def head (title : String) : String :=
  "<!DOCTYPE html>\n<html><head><meta charset=\"utf-8\"><title>" ++ escape title ++ "</title>\n" ++
  "<style>\n" ++
  "body \x7b font-family: sans-serif; margin: 1em 2em; \x7d\n" ++
  "pre \x7b font-family: monospace; background: #f6f6f6; padding: 1em; \x7d\n" ++
  "a.d \x7b font-weight: bold; \x7d\n" ++
  "</style></head><body>\n"

/-- The start of a page: its head and its title as a heading. -/
def opening (title : String) : String := head title ++ "\n<h1>" ++ escape title ++ "</h1>\n"

def closing : String := "\n</body></html>\n"

/-- The most paths that a page lists. -/
def maxResults : Nat := 200

/-- A line that links to a document. -/
def result (base : Bytes) (path : RawText) : String :=
  "<li><a href=\"" ++ linkPart base ++ linkPart path.bytes ++ "\">" ++ escape path.shown ++ "</a></li>\n"

/-- A list of documents, cut at a number of lines. -/
def results (base : Bytes) (title : String) (paths : List RawText) : String :=
  let shown := paths.take maxResults
  let more := if maxResults < paths.length then
      "<p>Showing " ++ toString shown.length ++ " of " ++ toString paths.length ++ " matches.</p>"
    else ""
  let body := if paths.isEmpty then "<p>No matches.</p>"
    else "<ul>\n" ++ String.join (shown.map (result base)) ++ "</ul>\n" ++ more ++ "\n"
  opening title ++ body ++ closing

/-- A document. Its text is markup of the analysis and stands as it is. -/
def document (d : Index.Document) : String :=
  let literals := d.literals.getD []
  let listing := if literals.isEmpty then ""
    else "<h2>Literals</h2>\n<pre>" ++ String.join (literals.map fun l => escape l ++ "\n") ++ "</pre>"
  opening d.path.shown ++ "<pre>" ++ d.text ++ "</pre>\n" ++ listing ++ closing

end ClassAtlas.Web.Page
