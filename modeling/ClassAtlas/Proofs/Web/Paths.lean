import ClassAtlas.Proofs.Web.Addresses
import Mathlib.Algebra.GroupWithZero.Nat
import Mathlib.Algebra.Order.BigOperators.Group.List
import Mathlib.Algebra.Order.Group.Nat

/-! Normal paths.

A rooted path is the join of its segments (`joinSegments_pieces`). Making it normal keeps segments
that lead on and drops the others, so it never makes a path longer (`length_cleanPath_le`), and it
leaves a path as it is exactly when every segment leads on, or all but an empty last one
(`cleanPath_eq_self_iff`). -/
namespace ClassAtlas.Web

/-! ### Segments -/

section Pieces
variable {p : UInt8 → Bool}

theorem pieces_cons_of_not {b : UInt8} (hb : p b = false) (bs : Bytes) :
    ∃ first others, pieces p bs = first :: others ∧ pieces p (b :: bs) = (b :: first) :: others := by
  obtain ⟨first, others, h⟩ := List.exists_cons_of_ne_nil (pieces_ne_nil p bs)
  refine ⟨first, others, h, ?_⟩
  rw [pieces, if_neg (by simp [hb]), h]

theorem pieces_append_cons {sep : UInt8} (hsep : p sep = true) (a b : Bytes) :
    pieces p (a ++ sep :: b) = pieces p a ++ pieces p b := by
  induction a with
  | nil => simp [pieces, hsep]
  | cons c a ih =>
    cases hc : p c with
    | true => simp [pieces, hc, ih]
    | false =>
      obtain ⟨first, others, ha, hca⟩ := pieces_cons_of_not hc a
      rw [List.cons_append, hca, pieces, if_neg (by simp [hc]), ih, ha]
      rfl

end Pieces

theorem isSlash_iff {b : UInt8} : isSlash b = true ↔ b = 47 := by
  rw [isSlash, isChar_iff, ← UInt8.toNat_inj]
  rfl

theorem joinSegments_cons (segment : Bytes) (rest : List Bytes) :
    joinSegments (segment :: rest) = 47 :: (segment ++ joinSegments rest) := rfl

theorem joinSegments_append (a b : List Bytes) : joinSegments (a ++ b) = joinSegments a ++ joinSegments b := by
  induction a with
  | nil => rfl
  | cons segment a ih => rw [List.cons_append, joinSegments_cons, ih, joinSegments_cons, List.cons_append,
      List.append_assoc]

/-- A rooted path is the join of its segments. -/
theorem joinSegments_pieces (bs : Bytes) : joinSegments (pieces isSlash bs) = 47 :: bs := by
  induction bs with
  | nil => rfl
  | cons b bs ih =>
    cases hb : isSlash b with
    | true =>
      obtain rfl := isSlash_iff.1 hb
      rw [pieces, if_pos hb, joinSegments_cons, List.nil_append, ih]
    | false =>
      obtain ⟨first, others, hbs, hcons⟩ := pieces_cons_of_not hb bs
      rw [hbs, joinSegments_cons] at ih
      rw [hcons, joinSegments_cons, List.cons_append, List.cons.inj ih |>.2]

theorem pieces_joinSegments {segments : List Bytes} (h : ∀ s ∈ segments, ∀ b ∈ s, isSlash b = false) :
    pieces isSlash (joinSegments segments) = [] :: segments := by
  induction segments with
  | nil => rfl
  | cons s rest ih =>
    have hrest := ih fun t ht => h t (List.mem_cons_of_mem s ht)
    have hs := pieces_of_not_mem (h s List.mem_cons_self)
    rw [joinSegments_cons, pieces, if_pos (by decide)]
    cases rest with
    | nil => simpa [joinSegments] using hs
    | cons t rest =>
      rw [joinSegments_cons] at hrest ⊢
      rw [pieces, if_pos (by decide)] at hrest
      rw [pieces_append_cons (by decide), hs, (List.cons.inj hrest).2]
      rfl

theorem eq_of_joinSegments_eq {a b : List Bytes} (ha : ∀ s ∈ a, ∀ x ∈ s, isSlash x = false)
    (hb : ∀ s ∈ b, ∀ x ∈ s, isSlash x = false) (h : joinSegments a = joinSegments b) : a = b := by
  have hpieces := congrArg (pieces isSlash) h
  rw [pieces_joinSegments ha, pieces_joinSegments hb] at hpieces
  exact (List.cons.inj hpieces).2

theorem exists_pieces (bs : Bytes) : ∃ init last, pieces isSlash bs = init ++ [last] :=
  ⟨_, _, (List.dropLast_append_getLast (pieces_ne_nil isSlash bs)).symm⟩

/-- A path ends with a slash just when its last segment is empty. -/
theorem getLast?_slash (bs : Bytes) :
    (47 :: bs).getLast?.any isSlash = ((pieces isSlash bs).getLast? == some []) := by
  obtain ⟨init, last, hpieces⟩ := exists_pieces bs
  have hlast : ∀ b ∈ last, isSlash b = false := not_mem_of_mem_pieces (by rw [hpieces]; simp)
  rw [← joinSegments_pieces, hpieces, joinSegments_append, joinSegments_cons]
  rcases List.eq_nil_or_concat last with rfl | ⟨last, b, rfl⟩
  · simp [joinSegments, isSlash_iff]
  · have hend : joinSegments init ++ 47 :: (last.concat b ++ joinSegments []) =
        (joinSegments init ++ 47 :: last) ++ [b] := by
      simp [joinSegments]
    have hb := hlast b (by simp)
    rw [hend, List.getLast?_concat, List.getLast?_concat]
    simp [hb]

/-! ### Normal form -/

/-- A step of the normal form puts a segment on top, leaves it out, or takes one off. -/
theorem cleanStep_sublist (done : List Bytes) (s : Bytes) :
    (Path.cleanStep segmentMeaning true done s).Sublist (s :: done) := by
  unfold Path.cleanStep
  split
  · exact List.sublist_cons_self s done
  · exact List.Sublist.refl _
  · split
    · exact List.nil_sublist _
    · split
      · exact List.Sublist.refl _
      · exact (List.sublist_cons_self _ _).trans (List.sublist_cons_self _ _)

/-- A normal path keeps segments of the path, in their order. -/
theorem normal_sublist (segments : List Bytes) : (Path.normal segmentMeaning true segments).Sublist segments := by
  have hfold : ∀ done : List Bytes,
      (segments.foldl (Path.cleanStep segmentMeaning true) done).Sublist (segments.reverse ++ done) := by
    induction segments with
    | nil => exact fun done => List.Sublist.refl done
    | cons s segments ih =>
      intro done
      rw [List.foldl_cons, List.reverse_cons, List.append_assoc]
      exact (ih _).trans (List.Sublist.append_left (cleanStep_sublist done s) _)
  have hnil := (hfold []).reverse
  rwa [List.append_nil, List.reverse_reverse] at hnil

/-- The segments that a normal path keeps all lead on. -/
theorem down_of_mem_normal {segments : List Bytes} {s : Bytes}
    (h : s ∈ Path.normal segmentMeaning true segments) : segmentMeaning s = .down := by
  have hstep : ∀ (done : List Bytes) (t : Bytes), (∀ s ∈ done, segmentMeaning s = .down) →
      ∀ s ∈ Path.cleanStep segmentMeaning true done t, segmentMeaning s = .down := by
    intro done t hdone s hs
    cases ht : segmentMeaning t with
    | stay => exact hdone s (by simpa [Path.cleanStep, ht] using hs)
    | down =>
      rcases List.mem_cons.1 (by simpa [Path.cleanStep, ht] using hs) with rfl | hs
      · exact ht
      · exact hdone s hs
    | up =>
      cases done with
      | nil => simp [Path.cleanStep, ht] at hs
      | cons top rest =>
        have htop := hdone top List.mem_cons_self
        exact hdone s (List.mem_cons_of_mem top (by simpa [Path.cleanStep, ht, htop] using hs))
  have hfold : ∀ done : List Bytes, (∀ s ∈ done, segmentMeaning s = .down) →
      ∀ s ∈ segments.foldl (Path.cleanStep segmentMeaning true) done, segmentMeaning s = .down := by
    clear h
    induction segments with
    | nil => exact fun done hdone => hdone
    | cons t segments ih => exact fun done hdone => ih _ (hstep done t hdone)
  exact hfold [] (by simp) s (List.mem_reverse.1 h)

theorem normal_of_down {segments : List Bytes} (h : ∀ s ∈ segments, segmentMeaning s = .down) :
    Path.normal segmentMeaning true segments = segments := by
  have hfold : ∀ done, segments.foldl (Path.cleanStep segmentMeaning true) done = segments.reverse ++ done := by
    induction segments with
    | nil => exact fun done => rfl
    | cons s segments ih =>
      intro done
      rw [List.foldl_cons, ih fun t ht => h t (List.mem_cons_of_mem s ht)]
      simp [Path.cleanStep, h s List.mem_cons_self]
  rw [Path.normal, hfold, List.append_nil, List.reverse_reverse]

/-- An empty segment leads nowhere. -/
theorem normal_append_nil (a b : List Bytes) :
    Path.normal segmentMeaning true (a ++ [] :: b) = Path.normal segmentMeaning true (a ++ b) := by
  have hstay : ∀ done, Path.cleanStep segmentMeaning true done [] = done := fun done => rfl
  rw [Path.normal, Path.normal, List.foldl_append, List.foldl_append, List.foldl_cons, hstay]

theorem length_joinSegments (segments : List Bytes) :
    (joinSegments segments).length = (segments.map fun s => s.length + 1).sum := by
  induction segments with
  | nil => rfl
  | cons s rest ih =>
    rw [joinSegments_cons, List.length_cons, List.length_append, ih, List.map_cons, List.sum_cons]
    omega

theorem length_normal_le (segments : List Bytes) :
    (joinSegments (Path.normal segmentMeaning true segments)).length ≤ (joinSegments segments).length := by
  rw [length_joinSegments, length_joinSegments]
  exact ((normal_sublist segments).map _).sum_le_sum fun _ _ => Nat.zero_le _

/-- What making a rooted path normal does to its segments. -/
theorem cleanPath_rooted {bs : Bytes} {init : List Bytes} {last : Bytes} (h : pieces isSlash bs = init ++ [last]) :
    cleanPath (47 :: bs) =
      if (Path.normal segmentMeaning true (init ++ [last])).isEmpty then [47]
      else joinSegments (Path.normal segmentMeaning true (init ++ [last])) ++ if last = [] then [47] else [] := by
  have hpieces : pieces isSlash (47 :: bs) = [] ++ [] :: (init ++ [last]) := by
    rw [pieces, if_pos (by decide), h]
    rfl
  have htrailing : (47 :: bs).getLast?.any isSlash = decide (last = []) := by
    rw [getLast?_slash, h, List.getLast?_concat]
    cases last <;> simp
  unfold cleanPath
  rw [hpieces, normal_append_nil, htrailing]
  simp
  rfl

/-- Every segment leads on; the last may be empty. -/
def IsNormal (path : Bytes) : Prop :=
  (∀ s ∈ (pieces isSlash path).dropLast, segmentMeaning s = .down) ∧
    ∀ s ∈ (pieces isSlash path).getLast?, s = [] ∨ segmentMeaning s = .down

instance (path : Bytes) : Decidable (IsNormal path) :=
  inferInstanceAs (Decidable ((∀ s ∈ _, _) ∧ _))

theorem isNormal_iff {bs : Bytes} {init : List Bytes} {last : Bytes} (h : pieces isSlash bs = init ++ [last]) :
    IsNormal bs ↔ (∀ s ∈ init, segmentMeaning s = .down) ∧ (last = [] ∨ segmentMeaning last = .down) := by
  simp [IsNormal, h]

/-- A path that is made normal as it stands was normal. -/
theorem isNormal_of_cleanPath_eq {bs : Bytes} (hbs : bs ≠ []) (h : cleanPath (47 :: bs) = 47 :: bs) : IsNormal bs := by
  obtain ⟨init, last, hpieces⟩ := exists_pieces bs
  have hslash : ∀ s ∈ init ++ [last], ∀ b ∈ s, isSlash b = false :=
    fun s hs => not_mem_of_mem_pieces (hpieces ▸ hs)
  have hkept : ∀ s ∈ Path.normal segmentMeaning true (init ++ [last]), ∀ b ∈ s, isSlash b = false :=
    fun s hs => hslash s ((normal_sublist _).subset hs)
  have hjoin : joinSegments (init ++ [last]) = 47 :: bs := hpieces ▸ joinSegments_pieces bs
  rw [cleanPath_rooted hpieces] at h
  rw [isNormal_iff hpieces]
  by_cases hempty : (Path.normal segmentMeaning true (init ++ [last])).isEmpty = true
  · rw [if_pos hempty] at h
    exact absurd (List.cons.inj h).2.symm hbs
  rw [if_neg hempty, ← hjoin] at h
  by_cases hlast : last = []
  · rw [if_pos hlast] at h
    -- The slash at the end is an empty segment behind those kept.
    have hkept' : ∀ s ∈ Path.normal segmentMeaning true (init ++ [last]) ++ [[]], ∀ b ∈ s, isSlash b = false := by
      intro s hs
      rcases List.mem_append.1 hs with hs | hs
      · exact hkept s hs
      · simp [List.mem_singleton.1 hs]
    have hsegments := eq_of_joinSegments_eq hkept' hslash ((joinSegments_append _ _).trans h)
    obtain ⟨hinit, _⟩ := List.append_inj' hsegments rfl
    exact ⟨fun s hs => down_of_mem_normal (hinit ▸ hs), .inl hlast⟩
  · rw [if_neg hlast, List.append_nil] at h
    have hsegments := eq_of_joinSegments_eq hkept hslash h
    have hdown : ∀ s ∈ init ++ [last], segmentMeaning s = .down :=
      fun s hs => down_of_mem_normal (hsegments.symm ▸ hs)
    exact ⟨fun s hs => hdown s (by simp [hs]), .inr (hdown last (by simp))⟩

theorem cleanPath_of_isNormal {bs : Bytes} (hbs : bs ≠ []) (h : IsNormal bs) : cleanPath (47 :: bs) = 47 :: bs := by
  obtain ⟨init, last, hpieces⟩ := exists_pieces bs
  have hjoin : joinSegments (init ++ [last]) = 47 :: bs := hpieces ▸ joinSegments_pieces bs
  obtain ⟨hinit, hlast⟩ := (isNormal_iff hpieces).1 h
  rw [cleanPath_rooted hpieces]
  by_cases hempty : last = []
  · subst hempty
    have hne : init ≠ [] := by
      rintro rfl
      exact hbs (List.cons.inj hjoin).2.symm
    rw [normal_append_nil, List.append_nil, normal_of_down hinit, if_neg (by simpa using hne), if_pos rfl,
      ← hjoin, joinSegments_append]
    rfl
  · have hdown : ∀ s ∈ init ++ [last], segmentMeaning s = .down := by
      intro s hs
      rcases List.mem_append.1 hs with hs | hs
      · exact hinit s hs
      · rw [List.mem_singleton.1 hs]
        exact hlast.resolve_left hempty
    rw [normal_of_down hdown, if_neg (by simp), if_neg hempty, List.append_nil, hjoin]

theorem cleanPath_eq_self_iff {bs : Bytes} (hbs : bs ≠ []) : cleanPath (47 :: bs) = 47 :: bs ↔ IsNormal bs :=
  ⟨isNormal_of_cleanPath_eq hbs, cleanPath_of_isNormal hbs⟩

/-- A path behind another is normal when both are. -/
theorem isNormal_append {a : Bytes} (ha : ∀ s ∈ pieces isSlash a, segmentMeaning s = .down) (b : Bytes) :
    IsNormal (a ++ 47 :: b) ↔ IsNormal b := by
  obtain ⟨init, last, hb⟩ := exists_pieces b
  have hpieces : pieces isSlash (a ++ 47 :: b) = (pieces isSlash a ++ init) ++ [last] := by
    rw [pieces_append_cons (by decide), hb, List.append_assoc]
  rw [isNormal_iff hpieces, isNormal_iff hb]
  refine and_congr_left fun _ => ⟨fun h s hs => h s (List.mem_append_right _ hs), fun h s hs => ?_⟩
  rcases List.mem_append.1 hs with hs | hs
  · exact ha s hs
  · exact h s hs

theorem isRooted_cleanPath (bs : Bytes) : IsRooted (cleanPath (47 :: bs)) := by
  obtain ⟨init, last, hpieces⟩ := exists_pieces bs
  rw [cleanPath_rooted hpieces]
  cases hkept : Path.normal segmentMeaning true (init ++ [last]) with
  | nil => exact ⟨[], rfl, rfl⟩
  | cons s rest =>
    have hs : s ∈ Path.normal segmentMeaning true (init ++ [last]) := by simp [hkept]
    have hslash := not_mem_of_mem_pieces (hpieces ▸ (normal_sublist _).subset hs)
    cases s with
    | nil => exact absurd (down_of_mem_normal hs) (by decide)
    | cons b s => exact ⟨_, rfl, hslash b List.mem_cons_self⟩

theorem length_cleanPath_le (bs : Bytes) : (cleanPath (47 :: bs)).length ≤ (47 :: bs).length := by
  obtain ⟨init, last, hpieces⟩ := exists_pieces bs
  have hjoin : joinSegments (init ++ [last]) = 47 :: bs := hpieces ▸ joinSegments_pieces bs
  rw [cleanPath_rooted hpieces]
  split
  · simp
  · rw [← hjoin]
    by_cases hlast : last = []
    · subst hlast
      rw [if_pos rfl, normal_append_nil, List.append_nil, joinSegments_append, List.length_append, List.length_append]
      exact Nat.add_le_add_right (length_normal_le init) 1
    · rw [if_neg hlast, List.append_nil]
      exact length_normal_le _

/-- An empty segment in the middle of a path vanishes. -/
theorem cleanPath_double_slash (a b : Bytes) :
    cleanPath (47 :: (a ++ 47 :: 47 :: b)) = cleanPath (47 :: (a ++ 47 :: b)) := by
  obtain ⟨init, last, hb⟩ := exists_pieces b
  have hdouble : pieces isSlash (a ++ 47 :: 47 :: b) = (pieces isSlash a ++ [] :: init) ++ [last] := by
    rw [pieces_append_cons (by decide), pieces, if_pos (by decide), hb]
    simp
  have hsingle : pieces isSlash (a ++ 47 :: b) = (pieces isSlash a ++ init) ++ [last] := by
    rw [pieces_append_cons (by decide), hb, List.append_assoc]
  rw [cleanPath_rooted hdouble, cleanPath_rooted hsingle, List.append_assoc, List.cons_append, normal_append_nil,
    List.append_assoc]

/-! ### Escaped paths -/

section Escaping
variable {f : UInt8 → Bytes}

/-- What escapes a byte keeps slashes and dots, and brings no others. -/
structure KeepsSegments (f : UInt8 → Bytes) : Prop where
  kept : ∀ b, b = 47 ∨ b = 46 → f b = [b]
  other : ∀ b, b ≠ 47 → b ≠ 46 → ∃ c cs, f b = c :: cs ∧ c ≠ 46 ∧ ∀ x ∈ c :: cs, x ≠ 47

theorem KeepsSegments.ne_nil (hf : KeepsSegments f) (b : UInt8) : f b ≠ [] := by
  by_cases hkept : b = 47 ∨ b = 46
  · simp [hf.kept b hkept]
  · rw [not_or] at hkept
    obtain ⟨c, cs, hc, _⟩ := hf.other b hkept.1 hkept.2
    simp [hc]

theorem KeepsSegments.isSlash (hf : KeepsSegments f) {b : UInt8} (hb : b ≠ 47) : ∀ x ∈ f b, isSlash x = false := by
  intro x hx
  have hne : x ≠ 47 := by
    by_cases hdot : b = 46
    · rw [hf.kept b (.inr hdot)] at hx
      rw [List.mem_singleton.1 hx]
      exact hb
    · obtain ⟨c, cs, hc, _, hslash⟩ := hf.other b hb hdot
      exact hslash x (hc ▸ hx)
  simpa [← isSlash_iff] using hne

theorem pieces_append_left {p : UInt8 → Bool} {x : Bytes} (hx : ∀ b ∈ x, p b = false) {rest first : Bytes}
    {others : List Bytes} (h : pieces p rest = first :: others) : pieces p (x ++ rest) = (x ++ first) :: others := by
  induction x with
  | nil => exact h
  | cons b x ih =>
    rw [List.cons_append, pieces, if_neg (by simp [hx b List.mem_cons_self]),
      ih fun y hy => hx y (List.mem_cons_of_mem b hy)]
    rfl

theorem pieces_flatMap (hf : KeepsSegments f) (bs : Bytes) :
    pieces isSlash (bs.flatMap f) = (pieces isSlash bs).map (·.flatMap f) := by
  induction bs with
  | nil => rfl
  | cons b bs ih =>
    by_cases hb : b = 47
    · subst hb
      rw [List.flatMap_cons, hf.kept 47 (.inl rfl), List.singleton_append, pieces, if_pos (by decide), ih, pieces,
        if_pos (by decide)]
      rfl
    · have hslash : isSlash b = false := by simpa [← isSlash_iff] using hb
      obtain ⟨first, others, hbs, hcons⟩ := pieces_cons_of_not hslash bs
      rw [hbs, List.map_cons] at ih
      rw [List.flatMap_cons, hcons, pieces_append_left (hf.isSlash hb) ih, List.map_cons, List.flatMap_cons]

/-- Only dots are written as dots alone. -/
theorem flatMap_of_dots (hf : KeepsSegments f) {s : Bytes} (h : ∀ x ∈ s.flatMap f, x = 46) : s.flatMap f = s := by
  have hdots : ∀ b ∈ s, f b = [b] := by
    intro b hb
    by_cases hkept : b = 47 ∨ b = 46
    · exact hf.kept b hkept
    · rw [not_or] at hkept
      obtain ⟨c, cs, hc, hne, _⟩ := hf.other b hkept.1 hkept.2
      exact absurd (h c (List.mem_flatMap.2 ⟨b, hb, by simp [hc]⟩)) hne
  rw [List.flatMap_congr hdots, List.flatMap_singleton']

theorem segmentMeaning_eq_down {s : Bytes} :
    segmentMeaning s = .down ↔ s ≠ [] ∧ s ≠ bytesOf "." ∧ s ≠ bytesOf ".." := by
  unfold segmentMeaning
  split
  · simp_all
    grind
  · split <;> simp_all

theorem segmentMeaning_flatMap (hf : KeepsSegments f) {s : Bytes} (h : segmentMeaning s = .down) :
    segmentMeaning (s.flatMap f) = .down := by
  rw [segmentMeaning_eq_down] at h ⊢
  have hdots : ∀ t : Bytes, (∀ x ∈ t, x = 46) → s ≠ t → s.flatMap f ≠ t := by
    intro t ht hne heq
    rw [flatMap_of_dots hf (heq ▸ ht)] at heq
    exact hne heq
  exact ⟨hdots _ (by simp) h.1, hdots _ (forall_mem_of_all (by decide)) h.2.1,
    hdots _ (forall_mem_of_all (by decide)) h.2.2⟩

theorem IsNormal.flatMap (hf : KeepsSegments f) {bs : Bytes} (h : IsNormal bs) : IsNormal (bs.flatMap f) := by
  obtain ⟨init, last, hpieces⟩ := exists_pieces bs
  have hpieces' : pieces isSlash (bs.flatMap f) = init.map (·.flatMap f) ++ [last.flatMap f] := by
    rw [pieces_flatMap hf, hpieces]
    simp
  rw [isNormal_iff hpieces] at h
  rw [isNormal_iff hpieces']
  refine ⟨fun s hs => ?_, ?_⟩
  · obtain ⟨t, ht, rfl⟩ := List.mem_map.1 hs
    exact segmentMeaning_flatMap hf (h.1 t ht)
  · rcases h.2 with rfl | hlast
    · exact .inl rfl
    · exact .inr (segmentMeaning_flatMap hf hlast)

end Escaping
end ClassAtlas.Web
