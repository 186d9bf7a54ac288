import ClassAtlas.Text.Markup
import ClassAtlas.Text.References

/-! Text inside markup is read back.

Replacing the character references of an escaped text gives the text (`unescape_escape`), for an
ampersand that the text has is written as a reference too. An escaped text has no quotation mark
and no angle bracket, so it ends neither an attribute nor a tag (`not_mem_escape`). -/
namespace ClassAtlas.Text

namespace References

theorem unescapeFrom_append (spelled rest : List Char) :
    unescapeFrom spelled.length (spelled ++ rest) = unescapeFrom 0 rest := by
  induction spelled with
  | nil => rfl
  | cons c spelled ih => exact ih

/-- A reference is replaced by what it stands for, if that is what is read whatever follows. -/
theorem unescape_reference (spelled : List Char) {chars rest : List Char}
    (h : reference? (spelled ++ rest) = some (chars, spelled.length)) :
    unescape ('&' :: spelled ++ rest) = chars ++ unescape rest := by
  rw [unescape, List.cons_append, unescapeFrom, if_pos rfl, h]
  show chars ++ unescapeFrom spelled.length _ = _
  rw [unescapeFrom_append]
  rfl

theorem unescape_cons {c : Char} (h : c ≠ '&') (rest : List Char) : unescape (c :: rest) = c :: unescape rest := by
  rw [unescape, unescapeFrom, if_neg h]
  rfl

theorem unescape_escapeChar (c : Char) (rest : List Char) :
    unescape (Markup.escapeChar c ++ rest) = c :: unescape rest := by
  unfold Markup.escapeChar
  by_cases hamp : c = '&'
  · subst hamp
    exact unescape_reference "amp;".toList rfl
  by_cases hquote : c = '\''
  · subst hquote
    exact unescape_reference "#39;".toList rfl
  by_cases hopen : c = '<'
  · subst hopen
    exact unescape_reference "lt;".toList rfl
  by_cases hclose : c = '>'
  · subst hclose
    exact unescape_reference "gt;".toList rfl
  by_cases hdouble : c = '"'
  · subst hdouble
    exact unescape_reference "#34;".toList rfl
  · rw [if_neg hamp, if_neg hquote, if_neg hopen, if_neg hclose, if_neg hdouble]
    exact unescape_cons hamp rest

/-- **Escaped text reads as the text it was made from.** -/
theorem unescape_escape (s : String) : unescape (Markup.escape s).toList = s.toList := by
  rw [Markup.escape, String.toList_ofList]
  induction s.toList with
  | nil => rfl
  | cons c cs ih => rw [List.flatMap_cons, unescape_escapeChar, ih]

end References

namespace Markup

theorem escapeChar_of_not_mem {c : Char} (h : c ∉ ['&', '\'', '<', '>', '"']) : escapeChar c = [c] := by
  simp only [List.mem_cons, List.not_mem_nil, or_false, not_or] at h
  simp [escapeChar, h]

/-- No mark that ends an attribute or a tag is left in an escaped text. -/
theorem not_mem_escape {c : Char} (hc : c ∈ ['"', '\'', '<', '>']) (s : String) : c ∉ (escape s).toList := by
  rw [escape, String.toList_ofList, List.mem_flatMap]
  rintro ⟨d, -, hd⟩
  by_cases hmark : d ∈ ['&', '\'', '<', '>', '"']
  · have hmarks : ['&', '\'', '<', '>', '"'].all (fun d =>
        (escapeChar d).all fun x => decide (x ∉ ['"', '\'', '<', '>'])) = true := by
      decide
    have hd' := List.all_eq_true.1 (List.all_eq_true.1 hmarks d hmark) c hd
    exact of_decide_eq_true hd' hc
  · rw [escapeChar_of_not_mem hmark, List.mem_singleton] at hd
    subst hd
    simp only [List.mem_cons, List.not_mem_nil, or_false] at hc hmark
    grind

end Markup
end ClassAtlas.Text
