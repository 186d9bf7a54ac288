import ClassAtlas.Proofs.Diff.Edits
import ClassAtlas.Proofs.Diff.Patch

/-! Hunks as they are written and read.

Edits that lead from places of two sequences to later ones are written with these places as ranges,
and with the lines between them (`Room.writtenAs`). What was written so is read back
(`hunks?_of_writtenAs`). Where the hunks cover all lines but common ones, what is read fits the
lines of the two texts (`Room.fits`). -/
namespace ClassAtlas.Diff
open Patch (Mark Line Range headerText Fits hunks?)

variable {as bs : List String} {i j i' j' i₁ j₁ n : Nat} {e : Edit} {es : List Edit} {hs : List Hunk}

/-! ### Lines between places -/

/-- The lines between two places of a sequence. -/
def slice (xs : List String) (lo hi : Nat) : List String := (xs.drop lo).take (hi - lo)

theorem slice?_eq {xs : List String} (hle : i ≤ i') (hi' : i' ≤ xs.length) : slice? xs i i' = some (slice xs i i') := by
  have hlength : ((i' : Int) - i).toNat = i' - i := by omega
  rw [slice?, if_pos (by omega), hlength]
  rfl

theorem slice_self (xs : List String) (lo : Nat) : slice xs lo lo = [] := by
  unfold slice
  rw [Nat.sub_self, List.take_zero]

theorem slice_append (xs : List String) (hi : i ≤ i₁) (hi' : i₁ ≤ i') :
    slice xs i i₁ ++ slice xs i₁ i' = slice xs i i' := by
  unfold slice
  have hlength : i' - i = (i₁ - i) + (i' - i₁) := by omega
  rw [hlength, List.take_add, List.drop_drop]
  congr 3
  omega

theorem slice_append_drop (xs : List String) (hi : i ≤ i') : slice xs i i' ++ xs.drop i' = xs.drop i := by
  have hdrop : xs.drop i' = (xs.drop i).drop (i' - i) := by
    rw [List.drop_drop]
    congr 1
    omega
  rw [slice, hdrop, List.take_append_drop]

theorem length_slice {xs : List String} (hi : i' ≤ xs.length) : (slice xs i i').length = i' - i := by
  rw [slice, List.length_take, List.length_drop]
  omega

theorem mem_slice {xs : List String} {line : String} {lo hi : Nat} (h : line ∈ slice xs lo hi) : line ∈ xs :=
  List.mem_of_mem_drop (List.mem_of_mem_take h)

theorem drop_eq_cons {xs : List String} {line : String} (h : xs[i]? = some line) :
    xs.drop i = line :: xs.drop (i + 1) := by
  obtain ⟨hi, rfl⟩ := List.getElem?_eq_some_iff.1 h
  exact List.drop_eq_getElem_cons hi

/-- What follows common lines follows the same lines in both texts. -/
theorem Agree.drop (h : Agree as bs i j n) :
    ∃ gap, gap.length = n ∧ as.drop i = gap ++ as.drop (i + n) ∧ bs.drop j = gap ++ bs.drop (j + n) := by
  induction n generalizing i j with
  | zero => exact ⟨[], rfl, rfl, rfl⟩
  | succ n ih =>
    obtain ⟨line, ha, hb⟩ : ∃ line, as[i]? = some line ∧ bs[j]? = some line := h 0 (Nat.succ_pos n)
    obtain ⟨gap, hgap, has, hbs⟩ := ih (h.sub (k := 1) (m := n) (by omega))
    have hsucc (k : Nat) : k + (n + 1) = k + 1 + n := by omega
    refine ⟨line :: gap, by rw [List.length_cons, hgap], ?_, ?_⟩
    · rw [drop_eq_cons ha, has, hsucc, List.cons_append]
    · rw [drop_eq_cons hb, hbs, hsucc, List.cons_append]

theorem Agree.slice (h : Agree as bs i j n) : slice as i (i + n) = slice bs j (j + n) := by
  obtain ⟨gap, hgap, has, hbs⟩ := h.drop
  unfold Diff.slice
  rw [Nat.add_sub_cancel_left, Nat.add_sub_cancel_left, has, hbs, ← hgap, List.take_left, List.take_left]

/-! ### The lines of an edit -/

/-- The lines of an edit, each with its mark. -/
def Edit.lines (as bs : List String) (e : Edit) : List Line :=
  let olds := slice as e.aLo.toNat e.aHi.toNat
  let news := slice bs e.bLo.toNat e.bHi.toNat
  match e.change with
  | .keep => olds.map (⟨.keep, ·⟩)
  | .delete => olds.map (⟨.remove, ·⟩)
  | .insert => news.map (⟨.add, ·⟩)
  | .replace => olds.map (⟨.remove, ·⟩) ++ news.map (⟨.add, ·⟩)

theorem Edit.text_mem {l : Line} (h : l ∈ e.lines as bs) : l.text ∈ as ∨ l.text ∈ bs := by
  have hmap {mark : Mark} {xs : List String} {lo hi : Nat} (h : l ∈ (slice xs lo hi).map (⟨mark, ·⟩)) :
      l.text ∈ xs := by
    obtain ⟨line, hline, rfl⟩ := List.mem_map.1 h
    exact mem_slice hline
  unfold Edit.lines at h
  split at h
  · exact .inl (hmap h)
  · exact .inl (hmap h)
  · exact .inr (hmap h)
  · exact (List.mem_append.1 h).imp hmap hmap

/-- The end of so many lines from a place on. -/
theorem toNat_add_natCast (i n : Nat) : ((i : Int) + n).toNat = i + n := by
  omega

theorem Edit.Leads.write (h : e.Leads as bs i j i' j') (ha : i' ≤ as.length) (hb : j' ≤ bs.length) :
    e.write as bs = some ((e.lines as bs).map Line.write) := by
  obtain ⟨hi, hj⟩ := h.le
  have hold := slice?_eq hi ha
  have hnew := slice?_eq hj hb
  cases h <;>
    simp_all [Edit.write, Edit.lines, marked, Line.write, Mark.text, Function.comp_def, toNat_add_natCast]

/-- The lines that an edit shows of the two texts are those between the places that it leads between. -/
theorem Edit.Leads.shows (h : e.Leads as bs i j i' j') :
    (e.lines as bs).filterMap Line.old? = slice as i i' ∧ (e.lines as bs).filterMap Line.new? = slice bs j j' := by
  cases h with
  | keep h =>
    simp [Edit.lines, List.filterMap_map, Function.comp_def, Line.old?, Line.new?, h.slice, toNat_add_natCast]
  | replace | delete | insert =>
    simp [Edit.lines, List.filterMap_map, Function.comp_def, Line.old?, Line.new?, slice_self]

theorem Script.shows (h : Script as bs i j es i' j') :
    (es.flatMap (Edit.lines as bs)).filterMap Line.old? = slice as i i' ∧
      (es.flatMap (Edit.lines as bs)).filterMap Line.new? = slice bs j j' := by
  induction h with
  | nil i j => exact ⟨(slice_self as i).symm, (slice_self bs j).symm⟩
  | cons he hrest ih =>
    rw [List.flatMap_cons, List.filterMap_append, List.filterMap_append, he.shows.1, he.shows.2, ih.1, ih.2]
    exact ⟨slice_append as he.le.1 hrest.le.1, slice_append bs he.le.2 hrest.le.2⟩

/-! ### The text of a hunk -/

theorem Edit.Leads.places (h : e.Leads as bs i j i' j') : e.aLo = i ∧ e.bLo = j ∧ e.aHi = i' ∧ e.bHi = j' := by
  cases h <;> exact ⟨rfl, rfl, rfl, rfl⟩

theorem Script.last (h : Script as bs i j es i' j') (hne : es ≠ []) :
    ∃ e, es.getLast? = some e ∧ e.aHi = i' ∧ e.bHi = j' := by
  induction h with
  | nil => exact absurd rfl hne
  | @cons _ _ _ _ _ _ e rest he hrest ih =>
    cases hrest with
    | nil => exact ⟨e, rfl, he.places.2.2⟩
    | cons =>
      obtain ⟨e', hlast, hplaces⟩ := ih (List.cons_ne_nil _ _)
      exact ⟨e', by rw [List.getLast?_cons_cons, hlast], hplaces⟩

theorem rangeText_eq (hle : i ≤ i') (hi' : i' < 9223372036854775808) : rangeText i i' = (Range.of i i').write := by
  obtain ⟨n, rfl⟩ := Nat.exists_eq_add_of_le hle
  have hlength : wrap ((i + n : Nat) - i) = n := by
    rw [wrap_eq (by omega) (by omega)]
    omega
  have hrange : Range.of i (i + n) = ⟨if n = 0 then i else i + 1, n⟩ := by
    rw [Range.of, Nat.add_sub_cancel_left]
  rw [rangeText, hlength, hrange]
  match n with
  | 0 =>
    have hzero : ",0" = "," ++ toString 0 := by decide +kernel
    show toString i ++ ",0" = toString i ++ "," ++ toString 0
    rw [String.append_assoc, hzero]
  | 1 => rfl
  | n + 2 =>
    rw [if_neg (by omega), if_neg (by omega), Range.write, if_neg (by dsimp only; omega), if_neg (by omega)]
    rfl

theorem Script.header (h : Script as bs i j es i' j') (hne : es ≠ []) (ha : i' < 9223372036854775808)
    (hb : j' < 9223372036854775808) : Hunk.header es = headerText (.of i i') (.of j j') := by
  obtain ⟨hi, hj⟩ := h.le
  obtain ⟨last, hlast, haHi, hbHi⟩ := h.last hne
  obtain _ | ⟨he, hrest⟩ := h
  · exact absurd rfl hne
  · obtain ⟨haLo, hbLo, -, -⟩ := he.places
    rw [Hunk.header, hlast, headerText, ← rangeText_eq hi ha, ← rangeText_eq hj hb, ← haHi, ← hbHi, ← haLo, ← hbLo]
    rfl

theorem Script.mapM_write (h : Script as bs i j es i' j') (ha : i' ≤ as.length) (hb : j' ≤ bs.length) :
    es.mapM (Edit.write as bs) = some (es.map fun e => (e.lines as bs).map Line.write) := by
  induction h with
  | nil => rfl
  | cons he hrest ih =>
    obtain ⟨hi, hj⟩ := hrest.le
    rw [List.mapM_cons, he.write (by omega) (by omega), ih ha hb]
    rfl

/-! ### Reading -/

/-- A hunk is written as a line with its ranges and the lines that it shows. -/
def WrittenAs (as bs : List String) (h : Hunk) (p : Patch.Hunk) : Prop :=
  Hunk.write as bs h = some (headerText p.old p.new :: p.lines.map Line.write) ∧
    ∀ l ∈ p.lines, l.text ∈ as ∨ l.text ∈ bs

theorem Room.writtenAs (hn : Room as bs n) (h : Script as bs i j es i' j') (hne : es ≠ []) (ha : i' ≤ as.length)
    (hb : j' ≤ bs.length) : WrittenAs as bs es ⟨.of i i', .of j j', es.flatMap (Edit.lines as bs)⟩ := by
  have hold := hn.old
  have hnew := hn.new
  refine ⟨?_, fun l hl => ?_⟩
  · rw [Hunk.write, h.mapM_write ha hb, h.header hne (by omega) (by omega), List.map_flatMap, List.flatMap_def]
    rfl
  · obtain ⟨e, -, hl⟩ := List.mem_flatMap.1 hl
    exact Edit.text_mem hl

variable {parsed : List Patch.Hunk}

/-- The lines of written hunks start with the ranges of the first one, and are read back. -/
theorem hunks?_of_writtenAs (h : List.Forall₂ (WrittenAs as bs) hs parsed) :
    ∃ lines, hs.mapM (Hunk.write as bs) = some lines ∧ hunks? lines.flatten = some ([], parsed) ∧
      (hs ≠ [] → ∃ old new rest, lines.flatten = headerText old new :: rest) ∧
      ((∀ line ∈ as, IsLine line) → (∀ line ∈ bs, IsLine line) → ∀ line ∈ lines.flatten, IsLine line) := by
  induction h with
  | nil => exact ⟨[], rfl, rfl, fun h => absurd rfl h, fun _ _ _ hmem => nomatch hmem⟩
  | @cons h p hs parsed hp _ ih =>
    obtain ⟨lines, hwrite, hread, -, hlines⟩ := ih
    obtain ⟨hhunk, htexts⟩ := hp
    refine ⟨(headerText p.old p.new :: p.lines.map Line.write) :: lines, ?_, ?_, fun _ => ⟨_, _, _, rfl⟩, ?_⟩
    · rw [List.mapM_cons, hhunk, hwrite]
      rfl
    · have hbody := Patch.hunks?_lines p.lines hread
      rw [List.append_nil] at hbody
      exact Patch.hunks?_header p.old p.new hbody
    · intro has hbs
      rw [List.flatten_cons]
      refine List.forall_mem_append.2 ⟨List.forall_mem_cons.2 ⟨Patch.isLine_headerText _ _, fun line hmem => ?_⟩,
        hlines has hbs⟩
      obtain ⟨l, hl, rfl⟩ := List.mem_map.1 hmem
      have hmark : '\n' ∉ l.mark.text.toList := by cases l.mark <;> decide
      exact .append hmark ((htexts l hl).elim (has _) (hbs _))

/-- Hunks that cover all lines but common ones are written as a patch that fits the lines. -/
theorem Room.fits (hroom : Room as bs n) (h : Patches as bs i j hs) :
    i ≤ as.length ∧ j ≤ bs.length ∧
      ∃ parsed, List.Forall₂ (WrittenAs as bs) hs parsed ∧ Fits i j parsed (as.drop i) (bs.drop j) := by
  induction h with
  | nil h =>
    obtain ⟨n, ha, hb, hn⟩ := h
    obtain ⟨gap, -, has, hbs⟩ := hn.drop
    refine ⟨by omega, by omega, [], .nil, ?_⟩
    rw [has, hbs, ha, hb, List.drop_length, List.drop_length]
    exact .nil _ _ _
  | @cons i j i₁ j₁ i₂ j₂ h rest hgap hne hhunk hrest ih =>
    obtain ⟨hi', hj', parsed, hparsed, hfits⟩ := ih
    obtain ⟨n, rfl, rfl, hn⟩ := hgap
    obtain ⟨gap, rfl, has, hbs⟩ := hn.drop
    obtain ⟨hi, hj⟩ := hhunk.le
    obtain ⟨hshowsOld, hshowsNew⟩ := hhunk.shows
    refine ⟨by omega, by omega, _, .cons (hroom.writtenAs hhunk hne hi' hj') hparsed, ?_⟩
    rw [has, hbs, ← slice_append_drop as hi, ← slice_append_drop bs hj, ← hshowsOld, ← hshowsNew]
    refine .cons gap ?_ ?_ rfl rfl hfits
    · rw [Patch.Hunk.oldLines, hshowsOld, length_slice hi']
      omega
    · rw [Patch.Hunk.newLines, hshowsNew, length_slice hj']
      omega

end ClassAtlas.Diff
