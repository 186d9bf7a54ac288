/-!
Text inside markup. The five characters that markup gives a meaning are written
as entities; all others stand for themselves.
-/
namespace ClassAtlas.Text.Markup

def escapeChar (c : Char) : List Char :=
  if c = '&' then "&amp;".toList
  else if c = '\'' then "&#39;".toList
  else if c = '<' then "&lt;".toList
  else if c = '>' then "&gt;".toList
  else if c = '"' then "&#34;".toList
  else [c]

def escape (s : String) : String := String.ofList (s.toList.flatMap escapeChar)

end ClassAtlas.Text.Markup
