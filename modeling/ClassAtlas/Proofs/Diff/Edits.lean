import ClassAtlas.Diff.Unified
import ClassAtlas.Proofs.Diff.Blocks

/-! The hunks of a diff are edits that lead from one sequence to the other.

Blocks that follow each other give edits that follow each other (`Script`), each of which says the
truth about its lines. Cutting the common ranges at the ends and dividing the long ones leaves out
common lines and nothing else, so the hunks cover every line that is not left out, once and in order
(`hunks_patches`). For this, 64 bits must hold twice the number of common lines that are shown, and the
places that are so many lines on (`Room`). Whatever they hold, sequences that differ have a hunk
(`hunks_ne_nil`). -/
namespace ClassAtlas.Diff

variable {as bs : List String} {i j i' j' i₁ j₁ aEnd bEnd n : Nat} {e : Edit}
  {es es' hunk : List Edit} {ms : List Block}

/-! ### Places -/

theorem wrap_eq {x : Int} (hlo : -9223372036854775808 ≤ x) (hhi : x < 9223372036854775808) : wrap x = x :=
  Int.bmod_eq_of_le_mul_two (by omega) (by omega)

/-- In 64 bits with a sign there is room for the places `n` lines on. -/
structure Room (as bs : List String) (n : Nat) : Prop where
  old : as.length + n < 9223372036854775808
  new : bs.length + n < 9223372036854775808

/-! ### Common lines -/

/-- As many common lines lead from the places `i` and `j` to the places `i'` and `j'`. -/
def Common (as bs : List String) (i j i' j' : Nat) : Prop :=
  ∃ n, i + n = i' ∧ j + n = j' ∧ Agree as bs i j n

theorem Common.refl (i j : Nat) : Common as bs i j i j := ⟨0, rfl, rfl, .zero⟩

theorem Common.trans (h : Common as bs i j i₁ j₁) (h' : Common as bs i₁ j₁ i' j') : Common as bs i j i' j' := by
  obtain ⟨m, rfl, rfl, hm⟩ := h
  obtain ⟨n, rfl, rfl, hn⟩ := h'
  exact ⟨m + n, by omega, by omega, hm.append hn⟩

/-! ### Edits -/

/-- What an edit that leads from the places `i` and `j` to the places `i'` and `j'` says of the lines
between them is so. Nothing is said of lines that are replaced. -/
inductive Edit.Leads (as bs : List String) : Nat → Nat → Edit → Nat → Nat → Prop
  | keep {i j n : Nat} (h : Agree as bs i j n) :
      Edit.Leads as bs i j ⟨.keep, i, (i + n : Nat), j, (j + n : Nat)⟩ (i + n) (j + n)
  | replace {i j i' j' : Nat} (ha : i ≤ i') (hb : j ≤ j') : Edit.Leads as bs i j ⟨.replace, i, i', j, j'⟩ i' j'
  | delete {i j i' : Nat} (ha : i ≤ i') : Edit.Leads as bs i j ⟨.delete, i, i', j, j⟩ i' j
  | insert {i j j' : Nat} (hb : j ≤ j') : Edit.Leads as bs i j ⟨.insert, i, i, j, j'⟩ i j'

theorem Edit.Leads.eq_keep (h : e.Leads as bs i j i' j') (hkeep : e.change = .keep) :
    ∃ n, Agree as bs i j n ∧ i' = i + n ∧ j' = j + n ∧ e = ⟨.keep, i, (i + n : Nat), j, (j + n : Nat)⟩ := by
  cases h with
  | @keep n hagree => exact ⟨n, hagree, rfl, rfl, rfl⟩
  | replace | delete | insert => contradiction

theorem Edit.Leads.le (h : e.Leads as bs i j i' j') : i ≤ i' ∧ j ≤ j' := by
  cases h <;> omega

/-- Edits that follow each other, from the places `i` and `j` to the places `i'` and `j'`. -/
inductive Script (as bs : List String) : Nat → Nat → List Edit → Nat → Nat → Prop
  | nil (i j : Nat) : Script as bs i j [] i j
  | cons {i j i₁ j₁ i' j' : Nat} {e : Edit} {rest : List Edit} (he : e.Leads as bs i j i₁ j₁)
      (hrest : Script as bs i₁ j₁ rest i' j') : Script as bs i j (e :: rest) i' j'

theorem Script.append (h : Script as bs i j es i₁ j₁) (h' : Script as bs i₁ j₁ es' i' j') :
    Script as bs i j (es ++ es') i' j' := by
  induction h with
  | nil => exact h'
  | cons he _ ih => exact .cons he (ih h')

theorem Script.le (h : Script as bs i j es i' j') : i ≤ i' ∧ j ≤ j' := by
  induction h with
  | nil => exact ⟨Nat.le_refl _, Nat.le_refl _⟩
  | cons he _ ih => exact ⟨Nat.le_trans he.le.1 ih.1, Nat.le_trans he.le.2 ih.2⟩

theorem Script.one (he : e.Leads as bs i j i' j') : Script as bs i j [e] i' j' := .cons he (.nil _ _)

/-- One more edit, where the latest stands first. -/
theorem Script.push (h : Script as bs i j hunk.reverse i₁ j₁) (he : e.Leads as bs i₁ j₁ i' j') :
    Script as bs i j (e :: hunk).reverse i' j' := by
  rw [List.reverse_cons]
  exact h.append (.one he)

theorem gap_script (hi : i ≤ i') (hj : j ≤ j') : Script as bs i j (gap i j i' j') i' j' := by
  unfold gap
  split
  · exact .one (.replace hi hj)
  · split
    · obtain rfl : j = j' := by omega
      exact .one (.delete hi)
    · obtain rfl : i = i' := by omega
      split
      · exact .one (.insert hj)
      · obtain rfl : j = j' := by omega
        exact .nil _ _

theorem editsFrom_script (h : Chain as bs aEnd bEnd i j ms) :
    Script as bs i j (editsFrom aEnd bEnd i j ms) aEnd bEnd := by
  induction h with
  | nil ha hb => exact gap_script ha hb
  | cons ha hb hm _ ih => exact (gap_script ha hb).append (.cons (.keep hm) ih)

/-- The edits of two sequences lead from the starts to the ends. -/
theorem edits_script (as bs : List String) : Script as bs 0 0 (edits as bs) as.length bs.length :=
  editsFrom_script (blocks_chain as bs)

/-! ### Cutting common ranges -/

section
variable {m : Nat} (hn : Room as bs n)
include hn

theorem Room.first (ha : i + m ≤ as.length) (hb : j + m ≤ bs.length) :
    Edit.first n ⟨.keep, i, (i + m : Nat), j, (j + m : Nat)⟩ =
      ⟨.keep, i, (i + min m n : Nat), j, (j + min m n : Nat)⟩ := by
  have hold := hn.old
  have hnew := hn.new
  have hi : wrap (i + n) = i + n := wrap_eq (by omega) (by omega)
  have hj : wrap (j + n) = j + n := wrap_eq (by omega) (by omega)
  simp only [Edit.first, hi, hj, Edit.mk.injEq, true_and]
  omega

theorem Room.last (ha : i + m ≤ as.length) (hb : j + m ≤ bs.length) :
    Edit.last n ⟨.keep, i, (i + m : Nat), j, (j + m : Nat)⟩ =
      ⟨.keep, (i + (m - n) : Nat), (i + m : Nat), (j + (m - n) : Nat), (j + m : Nat)⟩ := by
  have hold := hn.old
  have hnew := hn.new
  have hi : wrap ((i + m : Nat) - n) = (i + m : Nat) - n := wrap_eq (by omega) (by omega)
  have hj : wrap ((j + m : Nat) - n) = (j + m : Nat) - n := wrap_eq (by omega) (by omega)
  simp only [Edit.last, hi, hj, Edit.mk.injEq, true_and, and_true]
  omega

/-- The first lines of a common range, and then the others. -/
theorem Room.leads_first (h : e.Leads as bs i j i' j') (hkeep : e.change = .keep) (ha : i' ≤ as.length)
    (hb : j' ≤ bs.length) : ∃ i₁ j₁, (e.first n).Leads as bs i j i₁ j₁ ∧ Common as bs i₁ j₁ i' j' := by
  obtain ⟨m, hm, rfl, rfl, rfl⟩ := h.eq_keep hkeep
  rw [hn.first ha hb]
  exact ⟨_, _, .keep (hm.take (by omega)), m - min m n, by omega, by omega, hm.sub (by omega)⟩

/-- The last lines of a common range, after the others. -/
theorem Room.leads_last (h : e.Leads as bs i j i' j') (hkeep : e.change = .keep) (ha : i' ≤ as.length)
    (hb : j' ≤ bs.length) : ∃ i₁ j₁, Common as bs i j i₁ j₁ ∧ (e.last n).Leads as bs i₁ j₁ i' j' := by
  obtain ⟨m, hm, rfl, rfl, rfl⟩ := h.eq_keep hkeep
  rw [hn.last ha hb]
  refine ⟨i + (m - n), j + (m - n), ⟨m - n, rfl, rfl, hm.take (by omega)⟩, ?_⟩
  have hlast := Edit.Leads.keep (hm.sub (k := m - n) (m := min m n) (by omega))
  have hi : i + (m - n) + min m n = i + m := by omega
  have hj : j + (m - n) + min m n = j + m := by omega
  rw [hi, hj] at hlast
  exact hlast

theorem Room.trimStart_script (h : Script as bs i j es i' j') (ha : i' ≤ as.length) (hb : j' ≤ bs.length) :
    ∃ i₁ j₁, Common as bs i j i₁ j₁ ∧ Script as bs i₁ j₁ (trimStart n es) i' j' := by
  cases h with
  | nil => exact ⟨i, j, .refl _ _, .nil _ _⟩
  | cons he hrest =>
    rw [trimStart]
    split
    · rename_i hkeep
      obtain ⟨ha', hb'⟩ := hrest.le
      obtain ⟨i₁, j₁, hcommon, hlast⟩ := hn.leads_last he hkeep (by omega) (by omega)
      exact ⟨i₁, j₁, hcommon, .cons hlast hrest⟩
    · exact ⟨i, j, .refl _ _, .cons he hrest⟩

theorem Room.trimEnd_script (h : Script as bs i j es i' j') (ha : i' ≤ as.length) (hb : j' ≤ bs.length) :
    ∃ i₁ j₁, Script as bs i j (trimEnd n es) i₁ j₁ ∧ Common as bs i₁ j₁ i' j' := by
  induction h with
  | nil i j => exact ⟨i, j, .nil _ _, .refl _ _⟩
  | @cons i j _ _ i' j' e rest he hrest ih =>
    cases hrest with
    | nil =>
      unfold trimEnd
      split
      · rename_i hkeep
        obtain ⟨i₁, j₁, hfirst, hcommon⟩ := hn.leads_first he hkeep ha hb
        exact ⟨i₁, j₁, .one hfirst, hcommon⟩
      · exact ⟨_, _, .one he, .refl _ _⟩
    | cons =>
      obtain ⟨i₁, j₁, hscript, hcommon⟩ := ih ha hb
      exact ⟨i₁, j₁, .cons he hscript, hcommon⟩

end

/-! ### Hunks -/

/-- Hunks that cover the lines from the places `i` and `j` on to the ends, but for common lines. -/
inductive Patches (as bs : List String) : Nat → Nat → List Hunk → Prop
  | nil {i j : Nat} (h : Common as bs i j as.length bs.length) : Patches as bs i j []
  | cons {i j i₁ j₁ i₂ j₂ : Nat} {h : Hunk} {rest : List Hunk} (hgap : Common as bs i j i₁ j₁) (hne : h ≠ [])
      (hhunk : Script as bs i₁ j₁ h i₂ j₂) (hrest : Patches as bs i₂ j₂ rest) : Patches as bs i j (h :: rest)

theorem Patches.after {hs : List Hunk} (h : Common as bs i j i₁ j₁) (h' : Patches as bs i₁ j₁ hs) :
    Patches as bs i j hs := by
  cases h' with
  | nil hend => exact .nil (h.trans hend)
  | cons hgap hne hhunk hrest => exact .cons (h.trans hgap) hne hhunk hrest

/-- What is left when the edits end is a hunk, unless it is common lines only. -/
theorem divide_nil_patches (hhunk : Script as bs i j hunk.reverse i' j')
    (hend : Common as bs i' j' as.length bs.length) (n : Int) : Patches as bs i j (divide n hunk []) := by
  unfold divide
  match hunk, hhunk with
  | [], .nil _ _ => exact .nil hend
  | [e], .cons he (.nil _ _) =>
    dsimp only
    split
    · rename_i hkeep
      obtain ⟨m, hm, rfl, rfl, rfl⟩ := he.eq_keep hkeep
      exact .nil (.trans ⟨m, rfl, rfl, hm⟩ hend)
    · exact .cons (.refl _ _) (List.cons_ne_nil _ _) (.one he) (.nil hend)
  | e :: e' :: es, hhunk => exact .cons (.refl _ _) (by simp) hhunk (.nil hend)

/-- Dividing loses common lines only. `hunk` has the edits from the places `i` and `j` on. -/
theorem Room.divide_patches (hn : Room as bs n) (htwice : n + n < 9223372036854775808)
    (hhunk : Script as bs i j hunk.reverse i₁ j₁) (hes : Script as bs i₁ j₁ es i' j')
    (hend : Common as bs i' j' as.length bs.length) : Patches as bs i j (divide n hunk es) := by
  induction es generalizing i j i₁ j₁ hunk with
  | nil =>
    obtain ⟨⟩ := hes
    exact divide_nil_patches hhunk hend n
  | cons e rest ih =>
    obtain _ | ⟨he, hrest⟩ := hes
    unfold divide
    split
    · rename_i hlong
      obtain ⟨m, hm, rfl, rfl, rfl⟩ := he.eq_keep hlong.1
      obtain ⟨ha, hb⟩ : i₁ + m ≤ as.length ∧ j₁ + m ≤ bs.length := by
        obtain ⟨_, _, _, _⟩ := hend
        have := hrest.le
        omega
      have hlength : 2 * n < m := by
        have hold := hn.old
        have hlong := hlong.2
        rw [wrap_eq (by omega) (by omega), wrap_eq (by dsimp only; omega) (by dsimp only; omega)] at hlong
        dsimp only at hlong
        omega
      -- The first `n` lines end the hunk, the last `n` begin the next one.
      have hfirst : Agree as bs i₁ j₁ n := hm.take (by omega)
      have hgap : Common as bs (i₁ + n) (j₁ + n) (i₁ + (m - n)) (j₁ + (m - n)) :=
        ⟨m - n - n, by omega, by omega, hm.sub (by omega)⟩
      have hlast := Edit.Leads.keep (hm.sub (k := m - n) (m := n) (by omega))
      have hi : i₁ + (m - n) + n = i₁ + m := by omega
      have hj : j₁ + (m - n) + n = j₁ + m := by omega
      rw [hi, hj] at hlast
      rw [hn.first ha hb, hn.last ha hb, Nat.min_eq_right (by omega)]
      exact .cons (.refl _ _) (by simp) (hhunk.push (.keep hfirst)) (.after hgap (ih (.one hlast) hrest))
    · exact ih (hhunk.push he) hrest

/-- **The hunks cover every line but common ones, once and in order.** -/
theorem hunks_patches (hn : Room as bs n) (htwice : n + n < 9223372036854775808) :
    Patches as bs 0 0 (hunks n (edits as bs)) := by
  obtain ⟨i, j, hstart, hscript⟩ := hn.trimStart_script (edits_script as bs) (Nat.le_refl _) (Nat.le_refl _)
  obtain ⟨i', j', hscript', hend⟩ := hn.trimEnd_script hscript (Nat.le_refl _) (Nat.le_refl _)
  exact .after hstart (hn.divide_patches htwice (.nil i j) hscript' hend)

/-! ### Sequences that differ -/

/-- Sequences with common lines only are equal. -/
theorem Common.eq (h : Common as bs 0 0 as.length bs.length) : as = bs := by
  obtain ⟨n, ha, hb, hn⟩ := h
  refine List.ext_getElem? fun k => ?_
  by_cases hk : k < n
  · obtain ⟨line, hka, hkb⟩ := hn k hk
    rw [Nat.zero_add] at hka hkb
    rw [hka, hkb]
  · rw [List.getElem?_eq_none (by omega), List.getElem?_eq_none (by omega)]

theorem Script.common (h : Script as bs i j es i' j') (hkeep : ∀ e ∈ es, e.change = .keep) :
    Common as bs i j i' j' := by
  induction h with
  | nil i j => exact .refl i j
  | cons he _ ih =>
    obtain ⟨hkeep, hrest⟩ := List.forall_mem_cons.1 hkeep
    obtain ⟨m, hm, rfl, rfl, -⟩ := he.eq_keep hkeep
    exact .trans ⟨m, rfl, rfl, hm⟩ (ih hrest)

/-- There is an edit other than a common range. -/
def Changes (es : List Edit) : Prop := ∃ e ∈ es, e.change ≠ .keep

theorem changes_cons : Changes (e :: es) ↔ e.change ≠ .keep ∨ Changes es := by
  unfold Changes
  simp only [List.mem_cons, exists_eq_or_imp]

theorem changes_edits (h : as ≠ bs) : Changes (edits as bs) := by
  by_contra hkeep
  exact h ((edits_script as bs).common fun e he => by_contra fun hne => hkeep ⟨e, he, hne⟩).eq

theorem changes_trimStart (h : Changes es) (n : Int) : Changes (trimStart n es) := by
  cases es with
  | nil => exact h
  | cons e es =>
    rw [trimStart]
    split
    · rename_i hkeep
      exact changes_cons.2 (.inr ((changes_cons.1 h).resolve_left (not_not.2 hkeep)))
    · exact h

theorem changes_trimEnd (h : Changes es) (n : Int) : Changes (trimEnd n es) := by
  induction es using trimEnd.induct with
  | case1 => exact h
  | case2 e =>
    obtain ⟨e', he', hchange⟩ := h
    obtain rfl := List.mem_singleton.1 he'
    rw [trimEnd, if_neg hchange]
    exact ⟨e', List.mem_singleton_self e', hchange⟩
  | case3 e rest hne ih =>
    rw [trimEnd]
    · exact changes_cons.2 ((changes_cons.1 h).imp_right ih)
    · exact hne

/-- An edit other than a common range is in a hunk. -/
theorem divide_ne_nil (h : Changes hunk ∨ Changes es) (n : Int) : divide n hunk es ≠ [] := by
  induction es generalizing hunk with
  | nil =>
    obtain ⟨e, he, hchange⟩ := h.resolve_right fun ⟨_, hmem, _⟩ => nomatch hmem
    unfold divide
    match hunk, he with
    | [e'], he =>
      obtain rfl := List.mem_singleton.1 he
      simp [hchange]
    | _ :: _ :: _, _ => simp
  | cons e es ih =>
    unfold divide
    split
    · exact List.cons_ne_nil _ _
    · refine ih ?_
      rw [changes_cons]
      rw [changes_cons] at h
      tauto

/-- Two edits are a hunk, whatever they are. -/
theorem divide_ne_nil_of_two (h : 2 ≤ hunk.length + es.length) (n : Int) :
    divide n hunk es ≠ [] := by
  induction es generalizing hunk with
  | nil =>
    unfold divide
    match hunk, h with
    | _ :: _ :: _, _ => simp
  | cons e es ih =>
    unfold divide
    split
    · exact List.cons_ne_nil _ _
    · exact ih (by rw [List.length_cons] at h ⊢; omega)

theorem hunks_ne_nil (h : as ≠ bs) (n : Int) : hunks n (edits as bs) ≠ [] :=
  divide_ne_nil (.inr (changes_trimEnd (changes_trimStart (changes_edits h) n) n)) n

theorem ne_nil_of_mem_divide {h : Hunk} {n : Int} (hmem : h ∈ divide n hunk es) : h ≠ [] := by
  induction es generalizing hunk with
  | nil =>
    unfold divide at hmem
    split at hmem
    · cases hmem
    · split at hmem
      · cases hmem
      · obtain rfl := List.mem_singleton.1 hmem
        exact List.cons_ne_nil _ _
    · rename_i hne _
      obtain rfl := List.mem_singleton.1 hmem
      simpa using hne
  | cons e es ih =>
    unfold divide at hmem
    split at hmem
    · rcases List.mem_cons.1 hmem with rfl | hmem
      · simp
      · exact ih hmem
    · exact ih hmem

end ClassAtlas.Diff
