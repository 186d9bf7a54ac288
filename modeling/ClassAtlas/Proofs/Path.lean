import ClassAtlas.Path
import ClassAtlas.Proofs.Text.Raw
import Mathlib

/-! Which paths are those of class files and of archives.

A path ends in its extension, whatever is before it (`exists_append_suffix`), and an extension is found again
behind anything (`suffix_append`). An extension is compared as it is shown, letter by letter. As no
letter is a replacement, a path passes exactly if it ends in a dot and these letters, each in either case
or as the one other character that comes to it (`isClass_iff`, `isArchive_iff`). -/
namespace ClassAtlas.Path

/-! ### Extensions -/

section
variable {α : Type} [DecidableEq α] {a : α} {xs ys : List α}

theorem takeWhile_bne_append (h : a ∉ xs) : (xs ++ ys).takeWhile (· != a) = xs ++ ys.takeWhile (· != a) :=
  List.takeWhile_append_of_pos fun _ hx => bne_iff_ne.2 (ne_of_mem_of_not_mem hx h)

theorem takeWhile_bne_cons (h : a ∉ xs) : (xs ++ a :: ys).takeWhile (· != a) = xs := by
  rw [takeWhile_bne_append h]
  simp

end

theorem exists_append_suffix (path : RawText) : ∃ stem, path = stem ++ suffix path := by
  obtain ⟨bytes⟩ := path
  unfold suffix
  dsimp only
  split
  · rename_i hdot
    obtain ⟨before, after, hlast, hbefore⟩ := List.eq_append_cons_of_mem (List.contains_iff_mem.1 hdot)
    have hsplit := List.takeWhile_append_dropWhile (p := (· != slash)) (l := bytes.reverse)
    rw [hlast, takeWhile_bne_cons hbefore]
    rw [hlast] at hsplit
    refine ⟨⟨(after ++ bytes.reverse.dropWhile (· != slash)).reverse⟩, congrArg RawText.mk ?_⟩
    simpa using (congrArg List.reverse hsplit).symm
  · exact ⟨⟨bytes⟩, congrArg RawText.mk (List.append_nil bytes).symm⟩

theorem suffix_append (stem : RawText) {ext : Bytes} (hslash : slash ∉ ext) (hdot : dot ∉ ext) :
    suffix (stem ++ ⟨dot :: ext⟩) = ⟨dot :: ext⟩ := by
  have hslash' : slash ∉ ext.reverse ++ [dot] := by simpa using ⟨hslash, by decide⟩
  have hrev : (stem ++ ⟨dot :: ext⟩ : RawText).bytes.reverse = (ext.reverse ++ [dot]) ++ stem.bytes.reverse := by
    simp
  have hfirst : (ext.reverse ++ [dot] ++ stem.bytes.reverse.takeWhile (· != slash)).takeWhile (· != dot) =
      ext.reverse := by
    rw [List.append_assoc]
    exact takeWhile_bne_cons (by simpa using hdot)
  unfold suffix
  rw [hrev, takeWhile_bne_append hslash']
  dsimp only
  rw [hfirst]
  simp

/-! ### Letters -/

theorem toNat_toLower (c : Char) :
    c.toLower.toNat = if 65 ≤ c.toNat ∧ c.toNat ≤ 90 then c.toNat + 32 else c.toNat := by
  have hcase : c.val ≥ 'A'.val ∧ c.val ≤ 'Z'.val ↔ 65 ≤ c.toNat ∧ c.toNat ≤ 90 := Iff.rfl
  unfold Char.toLower
  by_cases h : c.val ≥ 'A'.val ∧ c.val ≤ 'Z'.val
  · have hbound := (hcase.1 h).2
    rw [dif_pos h, if_pos (hcase.1 h)]
    show (c.toNat + 32) % 2 ^ 32 = c.toNat + 32
    omega
  · rw [dif_neg h, if_neg (mt hcase.2 h)]

theorem toNat_toUpper (c : Char) :
    c.toUpper.toNat = if 97 ≤ c.toNat ∧ c.toNat ≤ 122 then c.toNat - 32 else c.toNat := by
  have hcase : 'a'.val ≤ c.val ∧ c.val ≤ 'z'.val ↔ 97 ≤ c.toNat ∧ c.toNat ≤ 122 := Iff.rfl
  have hdown : ('A'.val - 'a'.val).toNat = 4294967264 := by decide
  unfold Char.toUpper
  by_cases h : 'a'.val ≤ c.val ∧ c.val ≤ 'z'.val
  · have hbound := hcase.1 h
    rw [dif_pos h, if_pos hbound]
    show (c.val + ('A'.val - 'a'.val)).toNat = c.val.toNat - 32
    replace hbound : 97 ≤ c.val.toNat ∧ c.val.toNat ≤ 122 := hbound
    rw [UInt32.toNat_add, hdown]
    omega
  · rw [dif_neg h, if_neg (mt hcase.2 h)]

section Letters
variable {c l : Char}

theorem isLower_iff : l.isLower = true ↔ 97 ≤ l.toNat ∧ l.toNat ≤ 122 := by
  rw [Char.isLower, Bool.and_eq_true, decide_eq_true_eq, decide_eq_true_eq]
  rfl

theorem toLower_eq_iff (hl : l.isLower = true) : c.toLower = l ↔ c = l ∨ c = l.toUpper := by
  have hbound := isLower_iff.1 hl
  simp only [← Char.toNat_inj, toNat_toLower, toNat_toUpper, if_pos hbound]
  split <;> omega

theorem toLower_eq_dot : c.toLower = '.' ↔ c = '.' := by
  have hdot : '.'.toNat = 46 := rfl
  simp only [← Char.toNat_inj, toNat_toLower, hdot]
  split <;> omega

/-- A character beyond ASCII is no letter of an extension in either case. -/
theorem ne_letter (hl : l.isLower = true) (hc : 127 < c.toNat) : c ≠ l ∧ c ≠ l.toUpper := by
  have hbound := isLower_iff.1 hl
  simp only [ne_eq, ← Char.toNat_inj, toNat_toUpper, if_pos hbound]
  omega

/-- A character counts as a letter: it is the letter in either case, or another character that is known
to come to it. -/
def CountsAs (others : List (Char × Char)) (c l : Char) : Prop := c = l ∨ c = l.toUpper ∨ (c, l) ∈ others

theorem fold_eq_iff (hl : l.isLower = true) : fold c = l ↔ CountsAs [('ſ', 's')] c l := by
  unfold fold CountsAs
  split
  · rename_i h
    obtain ⟨hne, hne'⟩ := ne_letter (c := c) hl (by rw [h]; decide)
    simp [h ▸ hne, h ▸ hne', h, eq_comm]
  · rename_i h
    simp [h, toLower_eq_iff hl]

theorem lower_eq_iff (hl : l.isLower = true) (hk : l ≠ 'k') : lower c = l ↔ CountsAs [('İ', 'i')] c l := by
  unfold lower CountsAs
  split
  · rename_i h
    obtain ⟨hne, hne'⟩ := ne_letter (c := c) hl (by rw [h]; decide)
    simp [h ▸ hne, h ▸ hne', h, eq_comm]
  · rename_i h
    split
    · rename_i hkelvin
      obtain ⟨hne, hne'⟩ := ne_letter (c := c) hl (by rw [hkelvin]; decide)
      simp [hne, hne', h, hk.symm]
    · simp [h, toLower_eq_iff hl]

end Letters

/-! ### Kinds of paths -/

/-- A path ends in a dot and characters that count as these letters. -/
def EndsIn (others : List (Char × Char)) (letters : List Char) (path : RawText) : Prop :=
  ∃ (stem : RawText) (ext : List Char), path = stem ++ RawText.ofString (String.ofList ('.' :: ext)) ∧
    List.Forall₂ (CountsAs others) ext letters

section
variable {f : Char → Char} {others : List (Char × Char)} {letters : List Char}

theorem map_eq_iff (hletters : ∀ l ∈ letters, ∀ c, f c = l ↔ CountsAs others c l) {ext : List Char} :
    ext.map f = letters ↔ List.Forall₂ (CountsAs others) ext letters := by
  induction ext generalizing letters with
  | nil => cases letters <;> simp
  | cons c ext ih =>
    cases letters with
    | nil => simp
    | cons l letters =>
      obtain ⟨hl, hrest⟩ := List.forall_mem_cons.1 hletters
      rw [List.map_cons, List.cons.injEq, List.forall₂_cons, hl, ih hrest]

/-- An extension that is compared character by character, if nothing but a dot counts as a dot and neither
dots nor slashes nor replacements as letters. -/
theorem map_suffix_iff (hletters : ∀ l ∈ letters, ∀ c, f c = l ↔ CountsAs others c l)
    (hdot : ∀ c, f c = '.' ↔ c = '.') (hdot' : f '.' ∉ letters) (hslash : f '/' ∉ letters)
    (hreplacement : f Text.Units.replacement ∉ letters) (path : RawText) :
    (suffix path).shown.toList.map f = '.' :: letters ↔ EndsIn others letters path := by
  constructor
  · intro h
    obtain ⟨stem, hstem⟩ := exists_append_suffix path
    obtain ⟨c, ext, hshown, hc, hext⟩ := List.map_eq_cons_iff.1 h
    obtain rfl := (hdot c).1 hc
    have hwhole : Text.Units.replacement ∉ (suffix path).shown.toList := by
      rw [hshown, List.mem_cons, not_or]
      exact ⟨by decide, fun hmem => hreplacement (hext ▸ List.mem_map_of_mem hmem)⟩
    refine ⟨stem, ext, ?_, (map_eq_iff hletters).1 hext⟩
    rw [← hshown, String.ofList_toList, RawText.ofString_shown hwhole]
    exact hstem
  · rintro ⟨stem, ext, rfl, hext⟩
    have hmap := (map_eq_iff hletters).2 hext
    have hnone : ∀ {b : UInt8} {d : Char}, f d ∉ letters → b.toNat < 128 → d.toNat = b.toNat →
        b ∉ Text.Utf8.encode (String.ofList ext) := by
      intro b d hd hb hdb hmem
      obtain ⟨c, hc, hcb⟩ := (Text.Utf8.mem_encode hb _).1 hmem
      obtain rfl : c = d := Char.toNat_inj.1 (hcb.trans hdb.symm)
      rw [String.toList_ofList] at hc
      exact hd (hmap ▸ List.mem_map_of_mem hc)
    have hbytes : RawText.ofString (String.ofList ('.' :: ext)) = ⟨dot :: Text.Utf8.encode (String.ofList ext)⟩ := by
      rw [RawText.ofString, Text.Utf8.encode, String.toList_ofList, List.flatMap_cons,
        Text.Utf8.encodeChar_ascii (by decide), Text.Utf8.encode, String.toList_ofList]
      rfl
    have hsuffix : suffix (stem ++ RawText.ofString (String.ofList ('.' :: ext))) =
        RawText.ofString (String.ofList ('.' :: ext)) := by
      rw [hbytes]
      exact suffix_append stem (hnone hslash (by decide) rfl) (hnone hdot' (by decide) rfl)
    rw [hsuffix, RawText.shown_ofString, String.toList_ofList, List.map_cons, hmap, (hdot _).2 rfl]

end

theorem isClass_iff (path : RawText) : isClass path = true ↔ EndsIn [('ſ', 's')] "class".toList path := by
  have hlower : "class".toList.all Char.isLower = true := by decide
  have hdot : ∀ c, fold c = '.' ↔ c = '.' := by
    intro c
    unfold fold
    split
    · rename_i h
      simp [h]
    · exact toLower_eq_dot
  rw [isClass, beq_iff_eq]
  exact map_suffix_iff (fun l hl c => fold_eq_iff (List.all_eq_true.1 hlower l hl)) hdot (by decide) (by decide)
    (by decide) path

theorem isArchive_iff (path : RawText) :
    isArchive path = true ↔ EndsIn [('İ', 'i')] "jar".toList path ∨ EndsIn [('İ', 'i')] "zip".toList path := by
  have hlower : "jarzip".toList.all Char.isLower = true := by decide
  have hk : 'k' ∉ "jarzip".toList := by decide
  have hletters : ∀ l ∈ "jarzip".toList, ∀ c, lower c = l ↔ CountsAs [('İ', 'i')] c l := fun l hl c =>
    lower_eq_iff (List.all_eq_true.1 hlower l hl) (ne_of_mem_of_not_mem hl hk)
  have hdot : ∀ c, lower c = '.' ↔ c = '.' := by
    intro c
    unfold lower
    split
    · rename_i h
      simp [h]
    · split
      · rename_i h
        have hc : c ≠ '.' := fun hc => absurd h (by rw [hc]; decide)
        simp [hc]
      · exact toLower_eq_dot
  unfold isArchive
  rw [Bool.or_eq_true, beq_iff_eq, beq_iff_eq]
  refine or_congr (map_suffix_iff (fun l hl => hletters l ?_) hdot (by decide) (by decide) (by decide) path)
    (map_suffix_iff (fun l hl => hletters l ?_) hdot (by decide) (by decide) (by decide) path)
  · exact List.mem_append_left "zip".toList hl
  · exact List.mem_append_right "jar".toList hl

/-- `ſ` folds to `s`, and class files are told by folding; the lower case of `İ` is `i`, and archives are told
by that. -/
example : isClass "a.CLAſS" = true ∧ isClass "a.class/b" = false ∧ isArchive "lib.Zİp" = true := by decide +kernel

end ClassAtlas.Path
