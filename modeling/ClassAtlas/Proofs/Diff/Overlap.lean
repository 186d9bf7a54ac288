import ClassAtlas.Proofs.Diff.Written
import Mathlib.Data.List.Forall2

/-! Hunks that overlap.

When so many common lines are to be shown that 64 bits do not hold twice their number, every common range
is longer than the number they hold instead. So it ends a hunk and begins the next one, and since it has no
more lines than are to be shown, the same lines stand in both. Such hunks do not apply, unless the only
common range is at the ends, where no hunk follows it (`Room.converts_iff`). -/
namespace ClassAtlas.Diff
open Patch (Converts applyFrom)

variable {as bs : List String} {i j i' j' i₁ j₁ aEnd bEnd n : Nat} {e : Edit} {es hunk : List Edit} {ms : List Block}

/-! ### Common ranges are not empty -/

theorem change_of_mem_gap (h : e ∈ gap i j i' j') : e.change ≠ .keep := by
  unfold gap at h
  grind

theorem editsFrom_keep_lt (hms : ∀ m ∈ ms, 0 < m.size) (h : e ∈ editsFrom aEnd bEnd i j ms) (hkeep : e.change = .keep) :
    e.aLo < e.aHi := by
  induction ms generalizing i j with
  | nil => exact absurd hkeep (change_of_mem_gap h)
  | cons m ms ih =>
    obtain ⟨hm, hms⟩ := List.forall_mem_cons.1 hms
    rcases List.mem_append.1 h with hgap | hrest
    · exact absurd hkeep (change_of_mem_gap hgap)
    · rcases List.mem_cons.1 hrest with rfl | hrest
      · show (m.a : Int) < m.a + m.size
        omega
      · exact ih hms hrest

theorem edits_keep_lt (h : e ∈ edits as bs) (hkeep : e.change = .keep) : e.aLo < e.aHi :=
  editsFrom_keep_lt (blocks_pos as bs) h hkeep

theorem divide_change (n : Int) (hchange : e.change ≠ .keep) : divide n hunk (e :: es) = divide n (e :: hunk) es := by
  rw [divide, if_neg fun h => hchange h.1]

/-! ### Common ranges in two hunks -/

section
variable (hn : Room as bs n) (hmany : 9223372036854775808 ≤ n + n)
include hn hmany

theorem Room.wrap_twice : wrap (n + n) < 0 := by
  have hold := hn.old
  have hwrap : wrap (n + n) = wrap (n + n - (18446744073709551616 : Nat)) := (Int.sub_bmod_right _ _).symm
  rw [hwrap, wrap_eq (by omega) (by omega)]
  omega

/-- No common range is cut. -/
theorem Room.uncut (h : e.Leads as bs i j i' j') (hkeep : e.change = .keep) (ha : i' ≤ as.length)
    (hb : j' ≤ bs.length) : e.first n = e ∧ e.last n = e := by
  obtain ⟨m, -, rfl, rfl, rfl⟩ := h.eq_keep hkeep
  have hold := hn.old
  have hm : m ≤ n := by omega
  rw [hn.first ha hb, hn.last ha hb, Nat.min_eq_left hm, Nat.sub_eq_zero_of_le hm]
  exact ⟨rfl, rfl⟩

theorem Room.trimStart_eq (h : Script as bs i j es i' j') (ha : i' ≤ as.length) (hb : j' ≤ bs.length) :
    trimStart n es = es := by
  cases h with
  | nil => rfl
  | cons he hrest =>
    have hle := hrest.le
    rw [trimStart]
    split
    · rename_i hkeep
      rw [(hn.uncut hmany he hkeep (by omega) (by omega)).2]
    · rfl

theorem Room.trimEnd_eq (h : Script as bs i j es i' j') (ha : i' ≤ as.length) (hb : j' ≤ bs.length) :
    trimEnd n es = es := by
  induction h with
  | nil => rfl
  | cons he hrest ih =>
    cases hrest with
    | nil =>
      unfold trimEnd
      split
      · rename_i hkeep
        rw [(hn.uncut hmany he hkeep ha hb).1]
      · rfl
    | cons => rw [trimEnd, ih ha hb]; exact List.cons_ne_nil _ _

theorem Room.hunks_eq : hunks n (edits as bs) = divide n [] (edits as bs) := by
  have hscript := edits_script as bs
  rw [hunks, hn.trimStart_eq hmany hscript (Nat.le_refl _) (Nat.le_refl _),
    hn.trimEnd_eq hmany hscript (Nat.le_refl _) (Nat.le_refl _)]

/-- A common range ends a hunk, and begins the next one. -/
theorem Room.divide_keep (he : e.Leads as bs i j i' j') (hkeep : e.change = .keep) (ha : i' ≤ as.length)
    (hb : j' ≤ bs.length) : divide n hunk (e :: es) = (e :: hunk).reverse :: divide n [e] es := by
  have hlong : wrap (n + n) < wrap (e.aHi - e.aLo) := by
    have htwice := hn.wrap_twice hmany
    have hold := hn.old
    obtain ⟨m, -, rfl, rfl, rfl⟩ := he.eq_keep hkeep
    rw [wrap_eq (x := ((i + m : Nat) : Int) - i) (by omega) (by omega)]
    omega
  obtain ⟨hfirst, hlast⟩ := hn.uncut hmany he hkeep ha hb
  rw [divide, if_pos ⟨hkeep, hlong⟩, hfirst, hlast]

/-! ### What applies -/

theorem Room.divide_patches_of_last (hhunk : Script as bs i j hunk.reverse i₁ j₁)
    (hes : Script as bs i₁ j₁ es as.length bs.length) (hlast : ∀ e ∈ es.dropLast, e.change ≠ .keep) :
    Patches as bs i j (divide n hunk es) := by
  induction es generalizing i j i₁ j₁ hunk with
  | nil =>
    obtain ⟨⟩ := hes
    exact divide_nil_patches hhunk (.refl _ _) n
  | cons e rest ih =>
    obtain _ | ⟨he, hrest⟩ := hes
    obtain ⟨ha, hb⟩ := hrest.le
    by_cases hkeep : e.change = .keep
    · obtain rfl : rest = [] := by
        cases rest with
        | nil => rfl
        | cons => exact absurd hkeep (hlast e List.mem_cons_self)
      obtain ⟨⟩ := hrest
      rw [hn.divide_keep hmany he hkeep ha hb]
      have hnone : divide n [e] [] = [] := if_pos hkeep
      rw [hnone]
      exact .cons (.refl _ _) (by simp) (hhunk.push he) (.nil (.refl _ _))
    · rw [divide_change n hkeep]
      refine ih (hhunk.push he) hrest fun e' he' => hlast e' ?_
      cases rest with
      | nil => cases he'
      | cons => exact List.mem_cons_of_mem _ he'

/-- The hunks are written, and the first one begins where the edits do. -/
theorem Room.divide_writtenAs (hhunk : Script as bs i j hunk.reverse i₁ j₁)
    (hes : Script as bs i₁ j₁ es as.length bs.length) :
    ∃ parsed, List.Forall₂ (WrittenAs as bs) (divide n hunk es) parsed ∧ ∀ p ∈ parsed.head?, p.old.before = i := by
  induction es generalizing i j i₁ j₁ hunk with
  | nil =>
    obtain ⟨⟩ := hes
    unfold divide
    split
    · exact ⟨[], .nil, nofun⟩
    · split
      · exact ⟨[], .nil, nofun⟩
      · exact ⟨_, .cons (hn.writtenAs hhunk (List.cons_ne_nil _ _) (Nat.le_refl _) (Nat.le_refl _)) .nil, by simp⟩
    · exact ⟨_, .cons (hn.writtenAs hhunk (by simpa) (Nat.le_refl _) (Nat.le_refl _)) .nil, by simp⟩
  | cons e rest ih =>
    obtain _ | ⟨he, hrest⟩ := hes
    obtain ⟨ha, hb⟩ := hrest.le
    by_cases hkeep : e.change = .keep
    · rw [hn.divide_keep hmany he hkeep ha hb]
      have hone : Script as bs i₁ j₁ [e].reverse _ _ := .one he
      obtain ⟨parsed, hparsed, -⟩ := ih hone hrest
      exact ⟨_, .cons (hn.writtenAs (hhunk.push he) (by simp) ha hb) hparsed, by simp⟩
    · rw [divide_change n hkeep]
      exact ih (hhunk.push he) hrest

/-- A common range before another edit stands in two hunks, of which the second begins before the end of
the first. -/
theorem Room.divide_overlap (hhunk : Script as bs i j hunk.reverse i₁ j₁)
    (hes : Script as bs i₁ j₁ es as.length bs.length) (hkeeps : ∀ e ∈ es, e.change = .keep → e.aLo < e.aHi)
    (hinner : ∃ e ∈ es.dropLast, e.change = .keep) :
    ∃ parsed, List.Forall₂ (WrittenAs as bs) (divide n hunk es) parsed ∧
      ∀ k l lines, applyFrom k l parsed lines = none := by
  induction es generalizing i j i₁ j₁ hunk with
  | nil =>
    obtain ⟨e, he, -⟩ := hinner
    cases he
  | cons e rest ih =>
    obtain _ | ⟨he, hrest⟩ := hes
    obtain ⟨ha, hb⟩ := hrest.le
    obtain ⟨hlt, hkeeps⟩ := List.forall_mem_cons.1 hkeeps
    obtain ⟨e', rest', rfl⟩ : ∃ e' rest', rest = e' :: rest' := by
      cases rest with
      | nil => simp at hinner
      | cons e' rest' => exact ⟨e', rest', rfl⟩
    by_cases hkeep : e.change = .keep
    · have hone : Script as bs i₁ j₁ [e].reverse _ _ := .one he
      obtain ⟨parsed, hparsed, hfirst⟩ := hn.divide_writtenAs hmany hone hrest
      rw [hn.divide_keep hmany he hkeep ha hb]
      have hnext : divide n [e] (e' :: rest') ≠ [] := divide_ne_nil_of_two (by simp only [List.length_cons]; omega) n
      obtain ⟨p, ps, rfl⟩ := List.exists_cons_of_ne_nil fun h : parsed = [] =>
        hnext (List.forall₂_nil_right_iff.1 (h ▸ hparsed))
      refine ⟨_, .cons (hn.writtenAs (hhunk.push he) (by simp) ha hb) hparsed, fun k l lines =>
        Patch.applyFrom_overlap ?_ k l ps lines⟩
      have hle := hhunk.le
      have hlt := hlt hkeep
      obtain ⟨m, -, rfl, rfl, rfl⟩ := he.eq_keep hkeep
      rw [hfirst p rfl, Patch.Range.before_of]
      dsimp only [Patch.Range.of] at hlt ⊢
      omega
    · rw [divide_change n hkeep]
      refine ih (hhunk.push he) hrest hkeeps ?_
      obtain ⟨e'', he'', hkeep''⟩ := hinner
      rcases List.mem_cons.1 he'' with rfl | he''
      · contradiction
      · exact ⟨e'', he'', hkeep''⟩

end

/-- **When the hunks are a patch.** Where 64 bits hold twice the number of common lines to be shown, they lead
from the one text to the other. Where not, they do so only if no common range stands before another edit. -/
theorem Room.converts_iff (hn : Room as bs n) :
    ∃ parsed, List.Forall₂ (WrittenAs as bs) (hunks n (edits as bs)) parsed ∧
      (Converts parsed as bs ↔ n + n < 9223372036854775808 ∨ ∀ e ∈ (edits as bs).dropLast, e.change ≠ .keep) := by
  have hpatch (h : Patches as bs 0 0 (hunks n (edits as bs))) :
      ∃ parsed, List.Forall₂ (WrittenAs as bs) (hunks n (edits as bs)) parsed ∧ Converts parsed as bs := by
    obtain ⟨-, -, parsed, hparsed, hfits⟩ := hn.fits h
    exact ⟨parsed, hparsed, hfits.converts⟩
  rcases Nat.lt_or_ge (n + n) 9223372036854775808 with htwice | hmany
  · obtain ⟨parsed, hparsed, hconverts⟩ := hpatch (hunks_patches hn htwice)
    exact ⟨parsed, hparsed, iff_of_true hconverts (.inl htwice)⟩
  · have hstart : Script as bs 0 0 [].reverse 0 0 := .nil 0 0
    have hscript := edits_script as bs
    by_cases hinner : ∀ e ∈ (edits as bs).dropLast, e.change ≠ .keep
    · obtain ⟨parsed, hparsed, hconverts⟩ := hpatch (by
        rw [hn.hunks_eq hmany]
        exact hn.divide_patches_of_last hmany hstart hscript hinner)
      exact ⟨parsed, hparsed, iff_of_true hconverts (.inr hinner)⟩
    · obtain ⟨parsed, hparsed, hrefused⟩ := hn.divide_overlap hmany hstart hscript (fun _ => edits_keep_lt)
        (by simpa using hinner)
      rw [← hn.hunks_eq hmany] at hparsed
      refine ⟨parsed, hparsed, iff_of_false (fun h => ?_) (by simp [hinner, hmany])⟩
      have happlies := h.applies
      rw [Patch.apply, hrefused] at happlies
      cases happlies

end ClassAtlas.Diff
