import ClassAtlas.Diff.Unified
import Mathlib.Data.List.Basic

/-! Texts and their lines.

A text is its lines, one after the other (`join_linesOf`), so texts with the same lines are equal. Each
line of a text that is empty or ends with a line feed ends with the only line feed in it, and lines of
this kind are read back from the text that they make up (`linesOf_join`). -/
namespace ClassAtlas.Diff

/-- The text is empty or ends with a line feed. -/
def Terminated (s : String) : Prop := s = "" ∨ s.toList.getLast? = some '\n'

instance (s : String) : Decidable (Terminated s) := inferInstanceAs (Decidable (_ ∨ _))

/-- A line with the line feed that ends it and no other one. -/
def IsLine (s : String) : Prop := ∃ cs, '\n' ∉ cs ∧ s.toList = cs ++ ['\n']

theorem IsLine.append {s t : String} (hs : '\n' ∉ s.toList) (ht : IsLine t) : IsLine (s ++ t) := by
  obtain ⟨cs, hcs, heq⟩ := ht
  refine ⟨s.toList ++ cs, ?_, by rw [String.toList_append, heq, List.append_assoc]⟩
  rw [List.mem_append]
  exact not_or.2 ⟨hs, hcs⟩

theorem terminated_append (s : String) {t : String} (h : t.toList.getLast? = some '\n') : Terminated (s ++ t) := by
  refine .inr ?_
  rw [String.toList_append, List.getLast?_append, h]
  rfl

/-! ### The lines of a text -/

theorem toList_join_go (line cs : List Char) : (String.join (linesOf.go line cs)).toList = line.reverse ++ cs := by
  induction cs generalizing line with
  | nil => cases line <;> simp [linesOf.go]
  | cons c cs ih =>
    unfold linesOf.go
    split
    · rw [String.join_cons, String.toList_append, ih]
      simp
    · rw [ih]
      simp

/-- A text is its lines, one after the other. -/
theorem join_linesOf (s : String) : String.join (linesOf s) = s :=
  String.toList_inj.1 (toList_join_go [] s.toList)

theorem linesOf_inj {s t : String} : linesOf s = linesOf t ↔ s = t :=
  ⟨fun h => by rw [← join_linesOf s, h, join_linesOf], fun h => by rw [h]⟩

theorem isLine_of_mem_go {line cs : List Char} (hline : '\n' ∉ line)
    (hend : cs = [] ∧ line = [] ∨ cs.getLast? = some '\n') : ∀ s ∈ linesOf.go line cs, IsLine s := by
  induction cs generalizing line with
  | nil =>
    obtain ⟨-, rfl⟩ | hend := hend
    · exact fun s hs => nomatch hs
    · cases hend
  | cons c cs ih =>
    have hlast : (c :: cs).getLast? = some '\n' := hend.resolve_left fun h => nomatch h.1
    unfold linesOf.go
    split
    · rename_i hc
      refine List.forall_mem_cons.2 ⟨⟨line.reverse, by simpa using hline, by simp [hc]⟩, ih (by simp) ?_⟩
      cases cs with
      | nil => exact .inl ⟨rfl, rfl⟩
      | cons => exact .inr (by rwa [List.getLast?_cons_cons] at hlast)
    · rename_i hc
      refine ih (fun hmem => ?_) ?_
      · rcases List.mem_cons.1 hmem with heq | hmem
        · exact hc heq.symm
        · exact hline hmem
      · cases cs with
        | nil => exact absurd (Option.some.inj hlast) hc
        | cons => exact .inr (by rwa [List.getLast?_cons_cons] at hlast)

/-- The lines of a text that is empty or ends with a line feed. -/
theorem isLine_of_mem_linesOf {s : String} (h : Terminated s) : ∀ line ∈ linesOf s, IsLine line := by
  refine isLine_of_mem_go (by simp) ?_
  rcases h with rfl | h
  · exact .inl ⟨rfl, rfl⟩
  · exact .inr h

/-! ### The text of lines -/

theorem go_append {cs : List Char} (h : '\n' ∉ cs) (line rest : List Char) :
    linesOf.go line (cs ++ rest) = linesOf.go (cs.reverse ++ line) rest := by
  induction cs generalizing line with
  | nil => rfl
  | cons c cs ih =>
    have hc : c ≠ '\n' := fun heq => h (heq ▸ List.mem_cons_self)
    rw [List.cons_append, linesOf.go, if_neg hc, ih fun hmem => h (List.mem_cons_of_mem c hmem)]
    simp

/-- Lines are read back from the text that they make up. -/
theorem linesOf_join {lines : List String} (h : ∀ line ∈ lines, IsLine line) : linesOf (String.join lines) = lines := by
  induction lines with
  | nil => rfl
  | cons line lines ih =>
    obtain ⟨⟨cs, hcs, hline⟩, hlines⟩ := List.forall_mem_cons.1 h
    have heq : (String.join (line :: lines)).toList = cs ++ '\n' :: (String.join lines).toList := by
      rw [String.join_cons, String.toList_append, hline, List.append_assoc]
      rfl
    unfold linesOf
    rw [heq, go_append hcs, linesOf.go, if_pos rfl]
    congr 1
    · rw [← String.toList_inj, hline]
      simp
    · exact ih hlines

end ClassAtlas.Diff
