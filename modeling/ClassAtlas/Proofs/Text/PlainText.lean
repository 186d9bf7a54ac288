import ClassAtlas.Proofs.Text.Escaping
import ClassAtlas.Text.PlainText

/-! Plain text, piece by piece.

A marked-up text is made of pieces: text without a meaning in markup, escaped text, and tags. Each
piece can be taken off the front, whatever follows it: plain text stands for itself
(`strip_plain`), escaped text for what was escaped (`strip_escape`), and a tag for nothing
(`strip_markup`). A carriage return is not kept, so the first two ask that there is none. -/
namespace ClassAtlas.Text.PlainText
open Script

/-! ### Text -/

theorem uniformLines_cons {c : Char} (h : c ≠ '\r') (cs : List Char) :
    uniformLines (c :: cs) = c :: uniformLines cs := by
  rw [uniformLines]
  · rw [if_neg h]
  · rintro rest rfl
    exact absurd rfl h

theorem clean_cons {c : Char} (hreturn : c ≠ '\r') (hamp : c ≠ '&') (cs : List Char) :
    clean (c :: cs) = c :: clean cs := by
  rw [clean, uniformLines_cons hreturn, References.unescape_cons hamp]
  rfl

theorem clean_escapeChar {c : Char} (h : c ≠ '\r') (cs : List Char) :
    clean (Markup.escapeChar c ++ cs) = c :: clean cs := by
  have hlines : uniformLines (Markup.escapeChar c ++ cs) = Markup.escapeChar c ++ uniformLines cs := by
    by_cases hmark : c ∈ ['&', '\'', '<', '>', '"']
    · simp only [List.mem_cons, List.not_mem_nil, or_false] at hmark
      rcases hmark with rfl | rfl | rfl | rfl | rfl <;> rfl
    · rw [Markup.escapeChar_of_not_mem hmark]
      exact uniformLines_cons h cs
  rw [clean, hlines, References.unescape_escapeChar]
  rfl

/-- What has no opening bracket belongs to the text up to the next markup. -/
theorem textRun_append {run : List Char} (h : '<' ∉ run) (cs : List Char) :
    textRun (run ++ cs) = (run ++ (textRun cs).1, (textRun cs).2) := by
  induction run with
  | nil => rfl
  | cons c run ih =>
    simp only [List.mem_cons, not_or] at h
    rw [List.cons_append, textRun, ih h.2]
    simp [Ne.symm h.1]

/-- Text in front of other text is cleaned by itself, if cleaning it does not hang on what follows. -/
theorem strip_append {run chars : List Char} (hrun : '<' ∉ run)
    (hclean : ∀ cs, clean (run ++ cs) = chars ++ clean cs) (fuel : Nat) (cs : List Char) :
    strip (fuel + 1) (run ++ cs) = chars ++ strip (fuel + 1) cs := by
  rw [strip, strip, textRun_append hrun]
  dsimp only
  rw [hclean, List.append_assoc]

theorem strip_plain {run : List Char} (hopen : '<' ∉ run) (hamp : '&' ∉ run) (hreturn : '\r' ∉ run) (fuel : Nat)
    (cs : List Char) : strip (fuel + 1) (run ++ cs) = run ++ strip (fuel + 1) cs := by
  refine strip_append hopen (fun cs => ?_) fuel cs
  induction run with
  | nil => rfl
  | cons c run ih =>
    simp only [List.mem_cons, not_or] at hopen hamp hreturn
    rw [List.cons_append, clean_cons (Ne.symm hreturn.1) (Ne.symm hamp.1), ih hopen.2 hamp.2 hreturn.2]
    rfl

theorem strip_escape {s : String} (hreturn : '\r' ∉ s.toList) (fuel : Nat) (cs : List Char) :
    strip (fuel + 1) ((Markup.escape s).toList ++ cs) = s.toList ++ strip (fuel + 1) cs := by
  refine strip_append (Markup.not_mem_escape (by simp) s) (fun cs => ?_) fuel cs
  rw [Markup.escape, String.toList_ofList]
  generalize s.toList = raw at hreturn ⊢
  induction raw with
  | nil => rfl
  | cons c raw ih =>
    simp only [List.mem_cons, not_or] at hreturn
    rw [List.flatMap_cons, List.append_assoc, clean_escapeChar (Ne.symm hreturn.1), ih hreturn.2]
    rfl

/-! ### Tags -/

/-- A piece of markup that is not the start of a raw element leaves nothing. -/
theorem strip_markup {cs rest : List Char} (hopens : opensMarkup cs = true) (h : markup cs = .goOn rest) (fuel : Nat) :
    strip (fuel + 1) ('<' :: cs) = strip fuel rest := by
  have hrun : textRun ('<' :: cs) = ([], '<' :: cs) := by simp [textRun, hopens]
  rw [strip, hrun]
  dsimp only
  rw [h]
  rfl

/-- A value between quotation marks is passed over. -/
theorem skipTag_quoted {v : List Char} (h : '"' ∉ v) (rest : List Char) :
    skipTag (.quoted '"') (v ++ '"' :: rest) = skipTag .beforeKey rest := by
  induction v with
  | nil => rfl
  | cons c v ih =>
    simp only [List.mem_cons, not_or] at h
    rw [List.cons_append, skipTag, tagNext, if_neg (Ne.symm h.1)]
    exact ih h.2

theorem skipTag_blank (cs : List Char) : skipTag .beforeKey (' ' :: cs) = skipTag .beforeKey cs := rfl

theorem skipTag_key {k : List Char} (h : ∀ c ∈ k, endsName c = false ∧ c ≠ '=') (rest : List Char) :
    skipTag .key (k ++ '=' :: '"' :: rest) = skipTag (.quoted '"') rest := by
  induction k with
  | nil => rfl
  | cons c k ih =>
    obtain ⟨hend, hequals⟩ := h c List.mem_cons_self
    rw [List.cons_append, skipTag, tagNext, if_neg (by simp [hend, hequals])]
    exact ih fun d hd => h d (List.mem_cons_of_mem c hd)

/-- A key with a value between quotation marks is passed over. -/
theorem skipTag_attribute {k v : List Char} (hne : k ≠ []) (hk : ∀ c ∈ k, endsName c = false ∧ c ≠ '=')
    (hv : '"' ∉ v) (rest : List Char) :
    skipTag .beforeKey (k ++ '=' :: '"' :: (v ++ '"' :: rest)) = skipTag .beforeKey rest := by
  cases k with
  | nil => contradiction
  | cons c k =>
    have hstart : beforeKey c = some .key := by
      have hend := (hk c List.mem_cons_self).1
      simp only [endsName, Bool.or_eq_false_iff, decide_eq_false_iff_not] at hend
      simp [beforeKey, hend]
    rw [List.cons_append, skipTag, tagNext, hstart]
    dsimp only
    rw [skipTag_key fun d hd => hk d (List.mem_cons_of_mem c hd), skipTag_quoted hv]

/-- A tag with the name `a` ends where its attributes do. -/
theorem markup_anchor {cs rest : List Char} (h : skipTag .beforeKey cs = some rest) :
    markup ('a' :: ' ' :: cs) = .goOn rest := by
  have hskip : skipTag .beforeKey ((' ' :: cs).dropWhile (!endsName ·)) = some rest := h
  have hname : (' ' :: cs).takeWhile (!endsName ·) = [] := rfl
  have hraw : rawElement? ['a'] = none := by decide
  have hletter : Char.isAlpha 'a' = true := by decide
  rw [markup, if_pos hletter]
  · dsimp only
    rw [hskip, hname, hraw]
  all_goals simp

end ClassAtlas.Text.PlainText
