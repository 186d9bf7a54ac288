import ClassAtlas.Proofs.Json.Reading

/-! What the indented form of a value shows.

The characters that need digits in a string are nowhere in it, the line break apart, which the
layout has (`Value.Fits.isCoded_indented`). Every line break is the layout's own: a quoted string
has none, and a block has one before each of its parts and one behind the last (`breaks_block`). -/
namespace ClassAtlas.Json

/-! ### Characters -/

theorem isCoded_newline (level : Nat) : ∀ c ∈ newline level, isCoded c → c = '\n' := by
  intro c hc hcoded
  rw [newline, List.mem_cons, List.mem_replicate] at hc
  obtain rfl | ⟨-, rfl⟩ := hc
  · rfl
  · exact absurd hcoded (by decide)

theorem mem_joined {separator : List Char} {parts : List (List Char)} {c : Char}
    (h : c ∈ joined separator parts) : c ∈ separator ∨ ∃ part ∈ parts, c ∈ part := by
  cases parts with
  | nil => cases h
  | cons part parts =>
    rw [joined_cons, List.mem_append, List.mem_flatMap] at h
    obtain h | ⟨other, hother, h⟩ := h
    · exact .inr ⟨part, List.mem_cons_self, h⟩
    · obtain h | h := List.mem_append.1 h
      · exact .inl h
      · exact .inr ⟨other, List.mem_cons_of_mem part hother, h⟩

/-- A block whose brackets and parts show no character but harmless ones and line breaks shows no
others. -/
theorem isCoded_block {opening closing : Char} (hopening : isCoded opening = false)
    (hclosing : isCoded closing = false) (level : Nat) {parts : List (List Char)}
    (hparts : ∀ part ∈ parts, ∀ c ∈ part, isCoded c → c = '\n') :
    ∀ c ∈ block opening closing level parts, isCoded c → c = '\n' := by
  intro c hc hcoded
  have hbracket : ∀ {b : Char}, isCoded b = false → c ≠ b := by
    rintro b hb rfl
    simp [hb] at hcoded
  unfold block at hc
  split at hc
  · simp [hbracket hopening, hbracket hclosing] at hc
  · simp only [List.mem_append, List.mem_cons, List.not_mem_nil, or_false, List.cons_append,
      hbracket hopening, hbracket hclosing, false_or] at hc
    obtain (hc | hc) | hc := hc
    · exact isCoded_newline _ c hc hcoded
    · obtain hc | ⟨part, hpart, hc⟩ := mem_joined hc
      · obtain rfl | hc := List.mem_cons.1 hc
        · exact absurd hcoded (by decide)
        · exact isCoded_newline _ c hc hcoded
      · exact hparts part hpart c hc hcoded
    · exact isCoded_newline _ c hc hcoded

theorem isCoded_word {cs : List Char} (h : cs.all (!isCoded ·)) : ∀ c ∈ cs, isCoded c → c = '\n' := by
  intro c hc hcoded
  simpa [hcoded] using List.all_eq_true.1 h c hc

theorem isCoded_quote (s : String) : ∀ c ∈ quote s, isCoded c → c = '\n' :=
  isCoded_word (List.all_eq_true.2 fun c hc => by simp [not_isCoded_quote s c hc])

/-- **The indented form shows no angle bracket, ampersand, line separator or control character but
line breaks.** -/
theorem Value.Fits.isCoded_indented {depth : Nat} {v : Value} (h : v.Fits depth) (level : Nat) :
    ∀ c ∈ v.indented level, isCoded c → c = '\n' := by
  induction h generalizing level with
  | null =>
    rw [indented]
    exact isCoded_word (by decide)
  | bool b =>
    rw [indented]
    exact isCoded_word (by cases b <;> decide)
  | string s => exact isCoded_quote s
  | @array _ vs _ ih =>
    rw [indented, indentedAll_eq]
    refine isCoded_block (by decide) (by decide) level fun part hpart => ?_
    obtain ⟨v, hv, rfl⟩ := List.mem_map.1 hpart
    exact ih v hv (level + 1)
  | @object _ ms _ ih =>
    rw [indented, indentedMembers_eq]
    refine isCoded_block (by decide) (by decide) level fun part hpart => ?_
    obtain ⟨m, hm, rfl⟩ := List.mem_map.1 hpart
    intro c hc hcoded
    simp only [memberText, List.mem_append, List.mem_cons, List.not_mem_nil, or_false] at hc
    obtain hc | rfl | rfl | hc := hc
    · exact isCoded_quote _ c hc hcoded
    · exact absurd hcoded (by decide)
    · exact absurd hcoded (by decide)
    · exact ih m hm (level + 1) c hc hcoded

/-! ### Line breaks -/

/-- The line breaks of a text. -/
def breaks (cs : List Char) : Nat := cs.count '\n'

@[simp] theorem breaks_append (cs ds : List Char) : breaks (cs ++ ds) = breaks cs + breaks ds :=
  List.count_append

@[simp] theorem breaks_cons_of_ne {c : Char} (h : c ≠ '\n') (cs : List Char) : breaks (c :: cs) = breaks cs :=
  List.count_cons_of_ne h

@[simp] theorem breaks_newline (level : Nat) : breaks (newline level) = 1 := by
  simp [breaks, newline, List.count_replicate]

@[simp] theorem breaks_quote (s : String) : breaks (quote s) = 0 := by
  refine List.count_eq_zero.2 fun h => ?_
  have hcoded := not_isCoded_quote s '\n' h
  revert hcoded
  decide

theorem breaks_joined (separator part : List Char) (parts : List (List Char)) :
    breaks (joined separator (part :: parts)) =
      breaks part + (parts.map fun p => breaks separator + breaks p).sum := by
  simp [joined_cons, breaks, List.count_flatMap, Function.comp_def]

/-- A line break before each part and one behind the last, besides those of the parts. -/
theorem breaks_block {opening closing : Char} (hopening : opening ≠ '\n') (hclosing : closing ≠ '\n')
    (level : Nat) (parts : List (List Char)) :
    breaks (block opening closing level parts) =
      if parts = [] then 0 else (parts.map fun p => 1 + breaks p).sum + 1 := by
  have hnil : breaks [] = 0 := rfl
  cases parts with
  | nil => simp [block, hopening, hclosing, hnil]
  | cons part parts =>
    simp [block, breaks_joined, hopening, hclosing, hnil, Nat.add_assoc]

end ClassAtlas.Json
