import ClassAtlas.Proofs.Web.Addresses
import ClassAtlas.Web.Query

/-! What a query is read as.

Reading replaces escapes, cuts at separators and leaves out what is malformed, so a value that is
read is never longer than the text it is read from, and as long only when nothing was replaced. A
query of one name and one value is therefore read as that value exactly when the value has none of
the bytes that reading gives a meaning (`get_parse_iff`). -/
namespace ClassAtlas.Web

namespace Query

/-- A pair with a value is a name and a value around the first equals sign. -/
theorem pair?_eq_some {text name value : Bytes} (h : pair? text = some (name, value)) (hne : value ≠ []) :
    ∃ n eq v, text = n ++ eq :: v ∧ cut (isChar '=') text = (n, some v) ∧
      (∀ b ∈ text, isChar ';' b = false) ∧ unescape .query n = .ok name ∧ unescape .query v = .ok value := by
  unfold pair? at h
  split at h
  · cases h
  · rename_i hsemi
    simp only [Bool.or_eq_true, not_or, List.any_eq_true, not_exists, not_and, Bool.not_eq_true] at hsemi
    rcases cut_cases (isChar '=') text with ⟨hcut, _⟩ | ⟨n, eq, v, htext, hcut, _, _⟩
    · rw [hcut] at h
      have hempty : unescape .query [] = .ok [] := by rw [unescape]
      cases hname : unescape .query text with
      | error e => simp [hname] at h
      | ok name' =>
        obtain ⟨-, rfl⟩ : name' = name ∧ [] = value := by simpa [hname, hempty] using h
        exact absurd rfl hne
    · rw [hcut] at h
      refine ⟨n, eq, v, htext, hcut, hsemi.2, ?_⟩
      cases hname : unescape .query n with
      | error e => simp [hname] at h
      | ok name' =>
        cases hvalue : unescape .query v with
        | error e => simp [hname, hvalue] at h
        | ok value' =>
          obtain ⟨rfl, rfl⟩ : name' = name ∧ value' = value := by simpa [hname, hvalue] using h
          exact ⟨rfl, rfl⟩

/-- A value that is found comes from one of the pieces between ampersands. -/
theorem exists_pair_of_get {text : Bytes} {name : String} (hne : (parse text).get name ≠ []) :
    ∃ piece ∈ pieces (isChar '&') text, pair? piece = some (bytesOf name, (parse text).get name) := by
  unfold get at hne ⊢
  cases hlookup : (parse text).lookup (bytesOf name) with
  | none => simp [hlookup] at hne
  | some value =>
    obtain ⟨before, after, hparse, _⟩ := List.lookup_eq_some_iff.1 hlookup
    have hmem : (bytesOf name, value) ∈ parse text := by rw [hparse]; simp
    exact List.mem_filterMap.1 hmem

theorem parse_single {n v name value : Bytes} {eq : UInt8} (heq : isChar '=' eq = true)
    (hn : ∀ b ∈ n, isChar '=' b = false) (hsep : ∀ b ∈ n ++ eq :: v, isChar '&' b = false ∧ isChar ';' b = false)
    (hname : unescape .query n = .ok name) (hvalue : unescape .query v = .ok value) :
    parse (n ++ eq :: v) = [(name, value)] := by
  have hpair : pair? (n ++ eq :: v) = some (name, value) := by
    unfold pair?
    rw [if_neg]
    · rw [cut_append hn heq]
      simp [hname, hvalue]
    · simp only [Bool.or_eq_true, not_or, List.any_eq_true, not_exists, not_and, Bool.not_eq_true]
      exact ⟨by simp, fun b hb => (hsep b hb).2⟩
  rw [parse, pieces_of_not_mem fun b hb => (hsep b hb).1]
  simp [hpair]

/-- Bytes without a meaning to a query, other than that of the equals sign. -/
def IsPlain (bs : Bytes) : Prop := ∀ b ∈ bs, isOneOf "%+&;" b = false

instance (bs : Bytes) : Decidable (IsPlain bs) :=
  decidable_of_iff ((bs.all fun b => !isOneOf "%+&;" b) = true) (by simp [IsPlain])

theorem IsPlain.marks {bs : Bytes} (h : IsPlain bs) {b : UInt8} (hb : b ∈ bs) :
    (isChar '%' b = false ∧ isChar '+' b = false) ∧ isChar '&' b = false ∧ isChar ';' b = false := by
  simpa [isOneOf, and_assoc] using h b hb

section Single
variable {name : String} {eq : UInt8} {w v : Bytes} (heq : isChar '=' eq = true)
  (hname : IsPlain (bytesOf name)) (hcut : ∀ b ∈ bytesOf name, isChar '=' b = false)
include heq hname hcut

theorem parse_plain (hv : IsPlain v) : parse (bytesOf name ++ eq :: v) = [(bytesOf name, v)] := by
  have heq' : isChar '&' eq = false ∧ isChar ';' eq = false := by
    rw [isChar_iff] at heq
    simp [isChar, heq]
  have hsep : ∀ b ∈ bytesOf name ++ eq :: v, isChar '&' b = false ∧ isChar ';' b = false := by
    intro b hb
    rcases List.mem_append.1 hb with hb | hb
    · exact (hname.marks hb).2
    · rcases List.mem_cons.1 hb with rfl | hb
      · exact heq'
      · exact (hv.marks hb).2
  exact parse_single heq hcut hsep (unescape_query_eq_self_iff.2 fun b hb => (hname.marks hb).1)
    (unescape_query_eq_self_iff.2 fun b hb => (hv.marks hb).1)

/-- A query of one pair is read as a value exactly when it spells that value and no byte of the
value has a meaning. What is spelled is at most the start of the value. -/
theorem get_parse_iff (hw : w <+: v) (hv : v ≠ []) :
    (parse (bytesOf name ++ eq :: w)).get name = v ↔ w = v ∧ IsPlain v := by
  constructor
  · intro h
    obtain ⟨piece, hpiece, hpair⟩ := exists_pair_of_get (h ▸ hv)
    rw [h] at hpair
    obtain ⟨n, eq₁, v₁, htext, hcut₁, hsemi, hn, hv₁⟩ := pair?_eq_some hpair hv
    have hlenn := length_unescape hn
    have hlenv := length_unescape hv₁
    -- The piece spells name and value, so it is too long to be a proper piece.
    have hlong : (bytesOf name ++ eq :: w).length ≤ piece.length := by
      have := hw.length_le
      simp only [htext, List.length_append, List.length_cons]
      omega
    obtain rfl | hlt := eq_or_length_lt_of_mem_pieces hpiece
    · obtain ⟨rfl, hv₁w⟩ := Prod.mk.inj (hcut₁.symm.trans (cut_append hcut heq))
      obtain rfl := Option.some.inj hv₁w
      have hwv : v₁ = v := hw.eq_of_length_le (by omega)
      subst hwv
      have hself := unescape_query_eq_self_iff.1 hv₁
      refine ⟨rfl, fun b hb => ?_⟩
      have hb' : b ∈ bytesOf name ++ eq :: v₁ := by simp [hb]
      simp [isOneOf, hself b hb, not_mem_of_mem_pieces hpiece b hb', hsemi b hb']
    · omega
  · rintro ⟨rfl, hplain⟩
    simp [parse_plain heq hname hcut hplain, get]

end Single
end Query
end ClassAtlas.Web
