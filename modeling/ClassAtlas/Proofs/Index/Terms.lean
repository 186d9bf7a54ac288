import ClassAtlas.Proofs.Index.Runs
import ClassAtlas.Proofs.Text.CharSet
import ClassAtlas.Proofs.Text.Encoding
import Mathlib.Data.String.Basic

/-! The terms of a document.

What a field offers as terms is said by `Document.Offers`: definitions and references as they
stand, and for the full text its words, the literals and the words of these. A word is a longest
run of word characters (`IsWord`); that the characters are gone through once, from left to right,
finds exactly these (`mem_wordsFrom`). Sorting and then keeping each term that differs from the one
kept last leaves the terms in strict order, each once (`keepTerms_ordered`, `mem_termsOf`).

`terms_exact` puts these together, and with them that nothing but the strings offered counts:
neither their order nor how often they come. -/
namespace ClassAtlas.Index

/-! ### Words -/

/-- The word characters of ASCII. -/
theorem isWordChar_ascii {c : Char} (hc : c.toNat < 128) :
    isWordChar c = (c.isAlphanum || "_$.<>".toList.contains c) := by
  rw [isWordChar, Text.contains_letters_ascii hc, Text.contains_digits_ascii hc, Char.isAlphanum]
  simp [Bool.or_assoc, ← Bool.beq_eq_decide_eq]

/-- A longest run of word characters: it stands between ends of the text or other characters. -/
def IsWord (w s : List Char) : Prop :=
  ∃ before after, s = before ++ w ++ after ∧ w ≠ [] ∧ (∀ c ∈ w, isWordChar c = true) ∧
    (∀ c ∈ before.getLast?, isWordChar c = false) ∧ ∀ c ∈ after.head?, isWordChar c = false

section Words
variable {w u rest : List Char} {c : Char}

/-- Word characters that end with another character are none. -/
theorem eq_nil_of_getLast? (hu : ∀ c ∈ u, isWordChar c = true) (hlast : ∀ c ∈ u.getLast?, isWordChar c = false) :
    u = [] := by
  rcases List.eq_nil_or_concat u with h | ⟨b, c, rfl⟩
  · exact h
  · exact absurd (hu c (by simp)) (by simp [hlast c (by simp)])

/-- Word characters that start with another character are none. -/
theorem eq_nil_of_head? (hu : ∀ c ∈ u, isWordChar c = true) (hhead : ∀ c ∈ u.head?, isWordChar c = false) :
    u = [] := by
  cases u with
  | nil => rfl
  | cons c a => exact absurd (hu c (by simp)) (by simp [hhead c (by simp)])

/-- Where all characters are word characters, the one word is all of them. -/
theorem isWord_of_all (hu : ∀ c ∈ u, isWordChar c = true) : IsWord w u ↔ w = u ∧ u ≠ [] := by
  constructor
  · rintro ⟨before, after, rfl, hne, -, hbefore, hafter⟩
    obtain rfl := eq_nil_of_getLast? (fun c hc => hu c (by simp [hc])) hbefore
    obtain rfl := eq_nil_of_head? (fun c hc => hu c (by simp [hc])) hafter
    simpa using hne
  · rintro ⟨rfl, hne⟩
    exact ⟨[], [], by simp, hne, hu, by simp, by simp⟩

/-- Another character after word characters ends their word, if there are any. -/
theorem isWord_append_cons (hu : ∀ c ∈ u, isWordChar c = true) (hc : isWordChar c = false) :
    IsWord w (u ++ c :: rest) ↔ (w = u ∧ u ≠ []) ∨ IsWord w rest := by
  constructor
  · rintro ⟨before, after, heq, hne, hw, hbefore, hafter⟩
    rw [List.append_assoc] at heq
    obtain ⟨x, rfl, hx⟩ | ⟨x, rfl, hx⟩ := List.append_eq_append_iff.1 heq
    · -- The word starts behind the first characters, hence behind `c`, which is in no word.
      cases x with
      | nil =>
        obtain ⟨d, w, rfl⟩ := List.exists_cons_of_ne_nil hne
        obtain ⟨rfl, -⟩ := List.cons_eq_cons.1 (by simpa using hx)
        exact absurd (hw c (by simp)) (by simp [hc])
      | cons d x =>
        obtain ⟨rfl, rfl⟩ := List.cons_eq_cons.1 (by simpa using hx)
        refine .inr ⟨x, after, by simp, hne, hw, fun e he => hbefore e ?_, hafter⟩
        rw [List.getLast?_append, List.getLast?_cons, Option.mem_def.1 he]
        rfl
    · -- The word starts among the first characters, so at their start, and ends before `c`.
      obtain rfl := eq_nil_of_getLast? (fun c hc => hu c (by simp [hc])) hbefore
      obtain ⟨y, rfl, hy⟩ | ⟨y, rfl, hy⟩ := List.append_eq_append_iff.1 hx
      · cases y with
        | nil => exact .inl ⟨by simp, by simpa using hne⟩
        | cons d y =>
          have hd := hafter d (by simp [hy])
          exact absurd (hu d (by simp)) (by simp [hd])
      · cases y with
        | nil => exact .inl ⟨by simp, by simpa using hne⟩
        | cons d y =>
          obtain ⟨rfl, -⟩ := List.cons_eq_cons.1 hy
          exact absurd (hw c (by simp)) (by simp [hc])
  · rintro (⟨rfl, hne⟩ | ⟨before, after, rfl, hne, hw, hbefore, hafter⟩)
    · exact ⟨[], c :: rest, by simp, hne, hu, by simp, by simp [hc]⟩
    · refine ⟨u ++ c :: before, after, by simp, hne, hw, fun e he => ?_, hafter⟩
      rw [List.getLast?_append, List.getLast?_cons] at he
      cases hlast : before.getLast? with
      | none =>
        obtain rfl : c = e := by simpa [hlast] using he
        exact hc
      | some d =>
        obtain rfl : d = e := by simpa [hlast] using he
        exact hbefore d hlast

/-- Going through the characters finds the words, the current one held apart. -/
theorem mem_wordsFrom (hu : ∀ c ∈ u, isWordChar c = true) :
    w ∈ wordsFrom u rest ↔ IsWord w (u.reverse ++ rest) := by
  have hrev : ∀ {v : List Char}, (∀ c ∈ v, isWordChar c = true) → ∀ c ∈ v.reverse, isWordChar c = true :=
    fun h c hc => h c (List.mem_reverse.1 hc)
  induction rest generalizing u with
  | nil =>
    rw [List.append_nil, isWord_of_all (hrev hu), wordsFrom]
    cases u <;> simp
  | cons c rest ih =>
    rw [wordsFrom]
    cases hc : isWordChar c with
    | true =>
      have hmore : w ∈ wordsFrom (c :: u) rest ↔ IsWord w ((c :: u).reverse ++ rest) :=
        ih (List.forall_mem_cons.2 ⟨hc, hu⟩)
      rw [if_pos rfl, hmore, List.reverse_cons, List.append_assoc, List.singleton_append]
    | false =>
      have hrest : w ∈ wordsFrom [] rest ↔ IsWord w rest := ih (u := []) (by simp)
      rw [if_neg (by simp), isWord_append_cons (hrev hu) hc]
      cases u with
      | nil => simp [hrest]
      | cons d u => simp [hrest]

end Words

theorem mem_words {t s : String} : t ∈ words s ↔ IsWord t.toList s.toList := by
  have hwords : t.toList ∈ wordsFrom [] s.toList ↔ IsWord t.toList s.toList := mem_wordsFrom (by simp)
  rw [words, List.mem_map, ← hwords]
  constructor
  · rintro ⟨w, hw, rfl⟩
    rwa [String.toList_ofList]
  · intro h
    exact ⟨t.toList, h, String.ofList_toList⟩

/-! ### Keeping terms -/

theorem length_encode (s : String) : (Text.Utf8.encode s).length = Text.Utf8.size s := by
  rw [← Text.Utf8.toList_toUTF8]
  rfl

theorem isTerm_iff {s : String} :
    isTerm s = true ↔ 0 < (Text.Utf8.encode s).length ∧ (Text.Utf8.encode s).length ≤ maxTermSize := by
  rw [length_encode, isTerm, Bool.and_eq_true, decide_eq_true_iff, decide_eq_true_iff, Nat.pos_iff_ne_zero,
    Text.Utf8.size, Ne, Ne, String.utf8ByteSize_eq_zero_iff]

section Keeping
variable {last : Option String} {s t : String} {xs rest : List String}

theorem keepTerms_cons_of_term (hs : isTerm s = true) (hne : last ≠ some s) :
    keepTerms last (s :: rest) = s :: keepTerms (some s) rest := by
  simp [keepTerms, hs, hne]

theorem keepTerms_cons_of_not (h : isTerm s = false ∨ last = some s) :
    keepTerms last (s :: rest) = keepTerms last rest := by
  rcases h with h | h <;> simp [keepTerms, h]

/-- What is kept of strings in order, none below the one kept last, is above it and in strict order. -/
theorem keepTerms_ordered (hxs : xs.Pairwise (· ≤ ·)) (hlast : ∀ s ∈ last, ∀ x ∈ xs, s ≤ x) :
    (∀ s ∈ last, ∀ t ∈ keepTerms last xs, s < t) ∧ (keepTerms last xs).Pairwise (· < ·) := by
  induction xs generalizing last with
  | nil => exact ⟨fun _ _ _ h => absurd h List.not_mem_nil, .nil⟩
  | cons s rest ih =>
    obtain ⟨hs, hrest⟩ := List.pairwise_cons.1 hxs
    have hlast' : ∀ r ∈ last, ∀ x ∈ rest, r ≤ x := fun r hr x hx => hlast r hr x (List.mem_cons_of_mem s hx)
    by_cases hskip : isTerm s = false ∨ last = some s
    · rw [keepTerms_cons_of_not hskip]
      exact ih hrest hlast'
    · rw [not_or, Bool.not_eq_false] at hskip
      obtain ⟨habove, hordered⟩ := @ih (some s) hrest (by simpa using hs)
      rw [keepTerms_cons_of_term hskip.1 hskip.2]
      have habove : ∀ t ∈ keepTerms (some s) rest, s < t := habove s rfl
      refine ⟨fun r hr t ht => ?_, List.pairwise_cons.2 ⟨habove, hordered⟩⟩
      have hle : r ≤ s := hlast r hr s List.mem_cons_self
      have hlt : r < s := lt_of_le_of_ne hle fun heq => hskip.2 (heq ▸ hr)
      rcases List.mem_cons.1 ht with rfl | ht
      · exact hlt
      · exact hlt.trans (habove t ht)

theorem mem_of_mem_keepTerms (h : t ∈ keepTerms last xs) : isTerm t = true ∧ t ∈ xs := by
  induction xs generalizing last with
  | nil => cases h
  | cons s rest ih =>
    by_cases hskip : isTerm s = false ∨ last = some s
    · rw [keepTerms_cons_of_not hskip] at h
      exact (ih h).imp_right (List.mem_cons_of_mem s)
    · rw [not_or, Bool.not_eq_false] at hskip
      rw [keepTerms_cons_of_term hskip.1 hskip.2] at h
      rcases List.mem_cons.1 h with rfl | h
      · exact ⟨hskip.1, List.mem_cons_self⟩
      · exact (ih h).imp_right (List.mem_cons_of_mem s)

/-- Every term is kept, unless it was kept last. -/
theorem mem_keepTerms_of_mem (ht : isTerm t = true) (h : t ∈ xs) : last = some t ∨ t ∈ keepTerms last xs := by
  induction xs generalizing last with
  | nil => cases h
  | cons s rest ih =>
    by_cases hskip : isTerm s = false ∨ last = some s
    · rw [keepTerms_cons_of_not hskip]
      rcases List.mem_cons.1 h with rfl | h
      · exact .inl (hskip.resolve_left (by simp [ht]))
      · exact ih h
    · rw [not_or, Bool.not_eq_false] at hskip
      rw [keepTerms_cons_of_term hskip.1 hskip.2]
      rcases List.mem_cons.1 h with rfl | h
      · exact .inr List.mem_cons_self
      · rcases @ih (some s) h with hst | hmem
        · exact .inr (Option.some.inj hst ▸ List.mem_cons_self)
        · exact .inr (List.mem_cons_of_mem s hmem)

end Keeping

section TermsOf
variable {xs : List String} {t : String}

theorem mem_termsOf : t ∈ termsOf xs ↔ isTerm t = true ∧ t ∈ xs := by
  have hsorted : ∀ {s}, s ∈ xs.mergeSort (fun a b => decide (a ≤ b)) ↔ s ∈ xs := List.mem_mergeSort
  constructor
  · intro h
    exact (mem_of_mem_keepTerms h).imp_right hsorted.1
  · rintro ⟨ht, h⟩
    exact (mem_keepTerms_of_mem ht (hsorted.2 h)).resolve_left (by simp)

theorem termsOf_ordered (xs : List String) : (termsOf xs).Pairwise (· < ·) := by
  have hsorted : (xs.mergeSort fun a b => decide (a ≤ b)).Pairwise (· ≤ ·) := by
    refine (List.pairwise_mergeSort (fun a b c => ?_) (fun a b => ?_) xs).imp of_decide_eq_true
    · simpa using le_trans
    · simpa using le_total a b
  exact (keepTerms_ordered hsorted (by simp)).2

end TermsOf

/-! ### Documents -/

namespace Document

/-- The strings from which the terms of a field are taken. -/
def Offers (d : Document) : Field → String → Prop
  | .defs, t => t ∈ d.definitions.getD []
  | .refs, t => t ∈ d.references.getD []
  | .full, t => IsWord t.toList (Text.plainText d.text).toList ∨
    ∃ l ∈ d.literals.getD [], t = l ∨ IsWord t.toList l.toList

/-- A string offered that has from one byte to 1024. -/
def HasTerm (d : Document) (f : Field) (t : String) : Prop :=
  0 < (Text.Utf8.encode t).length ∧ (Text.Utf8.encode t).length ≤ 1024 ∧ d.Offers f t

theorem mem_terms {d : Document} {f : Field} {t : String} : t ∈ d.terms f ↔ d.HasTerm f t := by
  have hterm : ∀ xs, t ∈ termsOf xs ↔
      0 < (Text.Utf8.encode t).length ∧ (Text.Utf8.encode t).length ≤ 1024 ∧ t ∈ xs := by
    intro xs
    rw [mem_termsOf, isTerm_iff, and_assoc]
    rfl
  cases f with
  | defs => exact hterm _
  | refs => exact hterm _
  | full =>
    refine (hterm _).trans ?_
    simp only [HasTerm, Offers, List.mem_append, List.mem_flatMap, List.mem_cons, mem_words]

theorem terms_ordered (d : Document) (f : Field) : (d.terms f).Pairwise (· < ·) := by
  cases f <;> exact termsOf_ordered _

theorem termKeys_ordered (d : Document) (f : Field) : (d.termKeys f).Pairwise (· < ·) :=
  List.pairwise_map.2 ((d.terms_ordered f).imp RawText.ofString_lt_ofString.2)

/-- The same strings, in any order and any number, with no list for an empty one. -/
def SameStrings (xs ys : Option (List String)) : Prop := ∀ s, s ∈ xs.getD [] ↔ s ∈ ys.getD []

theorem hasTerm_congr {d d' : Document} (htext : d'.text = d.text)
    (hdefs : SameStrings d'.definitions d.definitions) (hrefs : SameStrings d'.references d.references)
    (hlits : SameStrings d'.literals d.literals) (f : Field) (t : String) : d'.HasTerm f t ↔ d.HasTerm f t := by
  cases f with
  | defs => simp only [HasTerm, Offers, hdefs t]
  | refs => simp only [HasTerm, Offers, hrefs t]
  | full => simp only [HasTerm, Offers, htext, show ∀ l, _ ↔ _ from hlits]

/-- **The terms of a field are the strings offered that have from 1 to 1024 bytes**, in strict order
of their bytes, and there is no list without them. The order and the number of the strings in the
document's lists do not matter. -/
theorem terms_exact (d : Document) :
    (∀ f, Database.Ascending (d.termKeys f) ∧ (∀ t, t ∈ d.terms f ↔ d.HasTerm f t) ∧
      (d.termList f = none ↔ ∀ t, ¬ d.HasTerm f t) ∧ ∀ ts, d.termList f = some ts → ts = d.terms f) ∧
    ∀ d' : Document, d'.text = d.text → SameStrings d'.definitions d.definitions →
      SameStrings d'.references d.references → SameStrings d'.literals d.literals →
      ∀ f, d'.termList f = d.termList f := by
  refine ⟨fun f => ⟨d.termKeys_ordered f, fun t => mem_terms, ?_, ?_⟩,
    fun d' htext hdefs hrefs hlits f => ?_⟩
  · have hnone : d.termList f = none ↔ d.terms f = [] := by simp [termList]
    rw [hnone, List.eq_nil_iff_forall_not_mem]
    exact forall_congr' fun t => not_congr mem_terms
  · intro ts h
    unfold termList at h
    split at h
    · cases h
    · exact (Option.some.inj h).symm
  · have hterms : ∀ t, t ∈ d'.terms f ↔ t ∈ d.terms f := fun t => by
      rw [mem_terms, mem_terms, hasTerm_congr htext hdefs hrefs hlits f t]
    have hkeys : d'.termKeys f = d.termKeys f :=
      Store.eq_of_ordered (d'.termKeys_ordered f) (d.termKeys_ordered f) fun t => by
        simp only [termKeys, List.mem_map, hterms]
    have hsame : d'.terms f = d.terms f := RawText.ofString_injective.list_map hkeys
    rw [termList, termList, hsame]

/-- The same lists in another order, with strings repeated and an absent list for an empty one. -/
theorem terms_exact_shuffled :
    let d : Document := ⟨"p/A", "", "<b>int</b> f_1 (x)", some ["f", "A"], none, some ["java.util.Map$Entry é", ""]⟩
    let d' : Document := ⟨"A", "00", "<b>int</b> f_1 (x)", some ["A", "f", "A"], some [],
      some ["", "java.util.Map$Entry é", ""]⟩
    d'.text = d.text ∧ SameStrings d'.definitions d.definitions ∧ SameStrings d'.references d.references ∧
      SameStrings d'.literals d.literals ∧ (∀ f, d'.termList f = d.termList f) ∧
      d.termList .defs = some ["A", "f"] ∧ d.termList .refs = none ∧
      d.termList .full = some ["f_1", "int", "java.util.Map$Entry", "java.util.Map$Entry é", "x", "é"] := by
  intro d d'
  have hdefs : SameStrings d'.definitions d.definitions := fun s => by simp [d, d']; tauto
  have hrefs : SameStrings d'.references d.references := fun s => by simp [d, d']
  have hlits : SameStrings d'.literals d.literals := fun s => by simp [d, d']; tauto
  have hwords : words (Text.plainText d.text) ++ (d.literals.getD []).flatMap (fun l => l :: words l) =
      ["int", "f_1", "x", "java.util.Map$Entry é", "java.util.Map$Entry", "é", ""] := by decide +kernel
  have hterms : d.terms .full = ["f_1", "int", "java.util.Map$Entry", "java.util.Map$Entry é", "x", "é"] := by
    have hsorted : List.mergeSort ["int", "f_1", "x", "java.util.Map$Entry é", "java.util.Map$Entry", "é", ""]
        (fun a b => decide (a ≤ b)) =
        ["", "f_1", "int", "java.util.Map$Entry", "java.util.Map$Entry é", "x", "é"] := by simp [List.mergeSort]
    rw [terms, hwords, termsOf, hsorted]
    decide +kernel
  have hfull : d.termList .full = some ["f_1", "int", "java.util.Map$Entry", "java.util.Map$Entry é", "x", "é"] := by
    rw [termList, hterms]
    rfl
  exact ⟨rfl, hdefs, hrefs, hlits, (terms_exact d).2 d' rfl hdefs hrefs hlits, by cbv, by cbv, hfull⟩

end Document
end ClassAtlas.Index
