import ClassAtlas.Xref.Analysis
import ClassAtlas.Proofs.Diff.Overlap
import ClassAtlas.Proofs.Success

/-! A unified diff is a patch.

Only equal texts have the empty diff (`unified_eq_empty`). The hunks that another diff is made of are read
back from its text, and turn the lines of the first text into those of the second unless so many common
lines are asked for that 64 bits do not hold twice their number (`read_unified`). -/
namespace ClassAtlas.Diff
open Patch (Converts headerText)

/-- The number of common lines that a diff shows. -/
def shown (context : Int) : Nat := (if context ≤ 0 then defaultContext else context).toNat

theorem cast_shown (context : Int) : (shown context : Int) = if context ≤ 0 then defaultContext else context := by
  refine Int.toNat_of_nonneg ?_
  unfold defaultContext
  split <;> omega

theorem shown_lt {context : Int} : shown context + shown context < 9223372036854775808 ↔
    context < 4611686018427387904 := by
  have hcast := cast_shown context
  unfold defaultContext at hcast
  split at hcast <;> omega

variable {aName bName a b : String} {context : Int}

theorem unified_eq_map (h : a ≠ b) (context : Int) :
    unified aName bName a b context =
      ((hunks (shown context) (edits (linesOf a) (linesOf b))).mapM (Hunk.write (linesOf a) (linesOf b))).map
        fun lines => String.join (titles aName bName ++ lines.flatten) := by
  have hne := hunks_ne_nil (mt linesOf_inj.1 h) (shown context)
  rw [cast_shown] at hne ⊢
  unfold unified
  rw [if_neg h]
  dsimp only
  split
  · contradiction
  · rw [Option.map_eq_bind]
    rfl

/-! ### The empty diff -/

theorem header_ne_empty {h : Hunk} (hne : h ≠ []) : Hunk.header h ≠ "" := by
  unfold Hunk.header
  split
  · intro hempty
    have := congrArg String.toList hempty
    simp at this
  · rename_i hnone
    exact absurd (List.getLast?_eq_some_getLast hne) (hnone _ _ (List.head?_eq_some_head hne))

theorem eq_empty_of_mem {lines : List String} {line : String} (h : String.join lines = "") (hline : line ∈ lines) :
    line = "" := by
  obtain ⟨before, after, rfl⟩ := List.append_of_mem hline
  have hlist := congrArg String.toList h
  simp [String.toList_join] at hlist
  exact hlist.2.1

/-- **Only equal texts have the empty diff.** -/
theorem unified_eq_empty (aName bName a b : String) (context : Int) :
    unified aName bName a b context = some "" ↔ a = b := by
  refine ⟨fun h => Decidable.byContradiction fun hne => ?_, fun h => if_pos h⟩
  rw [unified_eq_map hne] at h
  obtain ⟨lines, hlines, hempty⟩ := Option.map_eq_some_iff.1 h
  obtain ⟨hunk, rest, hhunks⟩ := List.exists_cons_of_ne_nil (hunks_ne_nil (mt linesOf_inj.1 hne) (shown context))
  have hhunk : hunk ≠ [] := by
    have hmem : hunk ∈ hunks (shown context) (edits (linesOf a) (linesOf b)) := hhunks ▸ List.mem_cons_self
    exact ne_nil_of_mem_divide hmem
  rw [hhunks, List.mapM_cons] at hlines
  simp only [Hunk.write, Option.bind_eq_bind, Option.bind_eq_some_iff, Option.pure_def, Option.some.injEq] at hlines
  obtain ⟨_, ⟨_, _, rfl⟩, _, _, rfl⟩ := hlines
  exact header_ne_empty hhunk (eq_empty_of_mem hempty (by simp))

/-! ### Reading -/

theorem isLine_of_mem_titles (ha : '\n' ∉ aName.toList) (hb : '\n' ∉ bName.toList) :
    ∀ line ∈ titles aName bName, IsLine line := by
  have hname {mark name : String} (hmark : '\n' ∉ mark.toList) (hname : '\n' ∉ name.toList) :
      IsLine (mark ++ name ++ "\n") :=
    .append (by simp [hmark, hname]) ⟨[], by simp, rfl⟩
  unfold titles
  split
  · exact fun _ hmem => nomatch hmem
  · exact List.forall_mem_cons.2 ⟨hname (by decide) ha, List.forall_mem_singleton.2 (hname (by decide) hb)⟩

theorem skipTitles_titles (aName bName : String) (old new : Patch.Range) (rest : List String) :
    Patch.skipTitles (titles aName bName ++ headerText old new :: rest) = headerText old new :: rest := by
  unfold titles
  split
  · cases rest <;> simp [Patch.skipTitles, headerText]
  · simp [Patch.skipTitles]

/-- **A diff is read back**, as hunks that lead from the one text to the other but where twice the number of
common lines is too much. -/
theorem read_unified (ha : Terminated a) (hb : Terminated b) (haName : '\n' ∉ aName.toList)
    (hbName : '\n' ∉ bName.toList) (hroom : Room (linesOf a) (linesOf b) (shown context)) :
    ∃ text hunks, unified aName bName a b context = some text ∧ Patch.read text = some hunks ∧
      (Converts hunks (linesOf a) (linesOf b) ↔
        a = b ∨ context < 4611686018427387904 ∨
          ∀ e ∈ (edits (linesOf a) (linesOf b)).dropLast, e.change ≠ .keep) := by
  by_cases h : a = b
  · subst h
    exact ⟨"", [], (unified_eq_empty ..).2 rfl, rfl, iff_of_true (Patch.Fits.nil 0 0 _).converts (.inl rfl)⟩
  · obtain ⟨parsed, hparsed, hconverts⟩ := hroom.converts_iff
    obtain ⟨lines, hwrite, hread, hstart, hlines⟩ := hunks?_of_writtenAs hparsed
    obtain ⟨old, new, rest, hstart⟩ := hstart (hunks_ne_nil (mt linesOf_inj.1 h) _)
    have hall := List.forall_mem_append.2 ⟨isLine_of_mem_titles haName hbName,
      hlines (isLine_of_mem_linesOf ha) (isLine_of_mem_linesOf hb)⟩
    refine ⟨_, parsed, by rw [unified_eq_map h, hwrite]; rfl, ?_, ?_⟩
    · rw [Patch.read, linesOf_join hall, hstart, skipTitles_titles, ← hstart, hread]
    · rw [hconverts, shown_lt, or_iff_right h]

/-! ### What is compared -/

/-- Renditions and lists of literals have lines only. -/
theorem terminated_of_analyze {links : Xref.Linker} {c : ClassFile.ClassModel} {r : Xref.Analysis}
    (h : Xref.analyze links c = .ok r) : Terminated r.text ∧ Terminated r.literalText := by
  obtain ⟨rendition, hrender, hr⟩ := bind_eq_ok.1 h
  obtain ⟨literals, -, hr⟩ := bind_eq_ok.1 hr
  obtain rfl := pure_eq_ok.1 hr
  constructor
  · -- The brace that closes the class stands on a line of its own.
    obtain ⟨items, hitems, hrendition⟩ := bind_eq_ok.1 hrender
    obtain rfl := pure_eq_ok.1 hrendition
    obtain ⟨source, -, hitems⟩ := bind_eq_ok.1 hitems
    obtain ⟨header, -, hitems⟩ := bind_eq_ok.1 hitems
    obtain ⟨locals, -, hitems⟩ := bind_eq_ok.1 hitems
    obtain ⟨fields, -, hitems⟩ := bind_eq_ok.1 hitems
    obtain ⟨methods, -, hitems⟩ := bind_eq_ok.1 hitems
    obtain rfl := pure_eq_ok.1 hitems
    show Terminated (String.join (List.map (Xref.Item.write links) (_ ++ [.text "\x7d\n"])))
    rw [List.map_append, String.join_append]
    exact terminated_append _ (by simp [Xref.Item.write])
  · show Terminated (String.join (literals.map (· ++ "\n")))
    rcases List.eq_nil_or_concat literals with rfl | ⟨before, literal, rfl⟩
    · exact .inl rfl
    · rw [List.concat_eq_append, List.map_append, String.join_append]
      exact terminated_append _ (by simp)

/-! ### The diff -/

/-- **Unified diffs apply.** A diff is empty if and only if its texts are equal. If each text is empty or ends
with a line feed, and no name has one, the diff is a patch. The ranges of its hunks match their lines, and it
turns the lines of the first text into those of the second, and with the texts exchanged the second into the
first. This is so for fewer than `2 ^ 62` common lines, and from there on for equal texts and for those without
a common range before another edit, but not for others: their hunks overlap. The renditions of classes and
their literals are texts of this kind. Wherever the two texts are searched for common lines, those found are in
both of them, and no run of common lines without popular ones is longer. -/
theorem unified_applies (aName bName a b : String) (context : Int) :
    (unified aName bName a b context = some "" ↔ a = b) ∧
    (Terminated a → Terminated b → '\n' ∉ aName.toList → '\n' ∉ bName.toList →
      Room (linesOf a) (linesOf b) (shown context) →
        ∃ text hunks, unified aName bName a b context = some text ∧ Patch.read text = some hunks ∧
          (Converts hunks (linesOf a) (linesOf b) ↔ a = b ∨ context < 4611686018427387904 ∨
            ∀ e ∈ (edits (linesOf a) (linesOf b)).dropLast, e.change ≠ .keep)) ∧
    (∀ (links : Xref.Linker) (c : ClassFile.ClassModel) (r : Xref.Analysis), Xref.analyze links c = .ok r →
      Terminated r.text ∧ Terminated r.literalText) ∧
    (∀ (as bs : List String) (w : Window), w.aLo ≤ w.aHi → w.bLo ≤ w.bHi →
      (longestBlock (Sequences.of as bs) w).Within as bs w ∧ ∀ m : Block, m.Within as bs w →
        (∀ k < m.size, ∀ line, bs[m.b + k]? = some line → isPopular bs line = false) →
          m.size ≤ (longestBlock (Sequences.of as bs) w).size) :=
  ⟨unified_eq_empty aName bName a b context, read_unified, fun _ _ _ => terminated_of_analyze, fun _ _ _ ha hb =>
    ⟨longestBlock_within ha hb, fun _ hm hunpopular => longestBlock_longest hm hunpopular⟩⟩

/-- A class with a string that it does not show. -/
def greetingClass : ClassFile.ClassModel where
  minor := 0
  major := 52
  pool := ⟨#[some (.utf8 "A"), some (.classRef 1), some (.string 4), some (.utf8 "hello")]⟩
  access := 0
  this := 2
  super := 0
  interfaces := []
  fields := []
  methods := []
  attributes := []

/-- Two hundred times the same line, and then another one. -/
def crowdedLines : List String := List.replicate 200 "p\n" ++ ["u\n"]

/-- One line is changed in a text, with the fewest and with too many common lines, and one line in many is not
popular. -/
theorem change_applies :
    unified "a.class" "b.class" "x\ny\n" "x\nz\n" 0 =
      some "--- a.class\n+++ b.class\n@@ -1,2 +1,2 @@\n x\n-y\n+z\n" ∧
    (∃ hunks, Patch.read "--- a.class\n+++ b.class\n@@ -1,2 +1,2 @@\n x\n-y\n+z\n" = some hunks ∧
      Converts hunks ["x\n", "y\n"] ["x\n", "z\n"]) ∧
    unified "a.class" "b.class" "x\ny\n" "x\nz\n" 4611686018427387904 =
      some "--- a.class\n+++ b.class\n@@ -1 +1 @@\n x\n@@ -1,2 +1,2 @@\n x\n-y\n+z\n" ∧
    (∃ hunks, Patch.read "--- a.class\n+++ b.class\n@@ -1 +1 @@\n x\n@@ -1,2 +1,2 @@\n x\n-y\n+z\n" = some hunks ∧
      ¬Converts hunks ["x\n", "y\n"] ["x\n", "z\n"]) ∧
    (∃ r, Xref.analyze ⟨"/?"⟩ greetingClass = .ok r ∧ r.literals = ["hello"] ∧ Terminated r.text ∧
      Terminated r.literalText) ∧
    isPopular crowdedLines "p\n" = true ∧ Block.Within ["p\n", "u\n"] crowdedLines ⟨0, 2, 0, 201⟩ ⟨1, 200, 1⟩ ∧
    1 ≤ (longestBlock (Sequences.of ["p\n", "u\n"] crowdedLines) ⟨0, 2, 0, 201⟩).size := by
  have happly := fun context => (unified_applies "a.class" "b.class" "x\ny\n" "x\nz\n" context).2.1
  obtain ⟨-, -, hlines, hlongest⟩ := unified_applies "a.class" "b.class" "x\ny\n" "x\nz\n" 0
  have hdiff : unified "a.class" "b.class" "x\ny\n" "x\nz\n" 0 =
      some "--- a.class\n+++ b.class\n@@ -1,2 +1,2 @@\n x\n-y\n+z\n" := by decide +kernel
  have hoverlap : unified "a.class" "b.class" "x\ny\n" "x\nz\n" 4611686018427387904 =
      some "--- a.class\n+++ b.class\n@@ -1 +1 @@\n x\n@@ -1,2 +1,2 @@\n x\n-y\n+z\n" := by decide +kernel
  have hblock : Block.Within ["p\n", "u\n"] crowdedLines ⟨0, 2, 0, 201⟩ ⟨1, 200, 1⟩ :=
    ⟨by decide, by decide, by decide, by decide, agree_one ⟨"u\n", rfl, by decide +kernel⟩⟩
  refine ⟨hdiff, ?_, hoverlap, ?_, ?_, by decide +kernel, hblock, ?_⟩
  · obtain ⟨text, hunks, htext, hread, hconverts⟩ := happly 0 (by decide) (by decide) (by decide)
      (by decide) ⟨by decide, by decide⟩
    rw [hdiff] at htext
    obtain rfl := Option.some.inj htext
    exact ⟨hunks, hread, hconverts.2 (.inr (.inl (by decide)))⟩
  · obtain ⟨text, hunks, htext, hread, hconverts⟩ := happly 4611686018427387904 (by decide) (by decide) (by decide)
      (by decide) ⟨by decide, by decide⟩
    rw [hoverlap] at htext
    obtain rfl := Option.some.inj htext
    exact ⟨hunks, hread, mt hconverts.1 (by decide +kernel)⟩
  · have hanalyze : (Xref.analyze ⟨"/?"⟩ greetingClass).map (·.literals) = .ok ["hello"] := by decide +kernel
    obtain ⟨r, hr, hliterals⟩ := map_eq_ok.1 hanalyze
    exact ⟨r, hr, hliterals, hlines _ _ r hr⟩
  · refine (hlongest _ _ ⟨0, 2, 0, 201⟩ (by decide) (by decide)).2 ⟨1, 200, 1⟩ hblock fun k hk line hline => ?_
    obtain rfl : k = 0 := Nat.lt_one_iff.1 hk
    have hu : crowdedLines[200]? = some "u\n" := by decide +kernel
    obtain rfl : line = "u\n" := Option.some.inj (hline.symm.trans hu)
    decide +kernel

end ClassAtlas.Diff
