import ClassAtlas.Proofs.Success
import ClassAtlas.Proofs.Text.Encoding
import ClassAtlas.Web.Url
import Mathlib.Data.List.TakeWhile

/-! How addresses are taken apart.

A text is cut at the first byte of a class (`cut_cases`) or into the pieces between all of them, and
its escapes are replaced, each of which takes three bytes and gives one (`length_unescape`). The
query of an address is what stands behind its first question mark, whatever else it has
(`query_parse`). -/
namespace ClassAtlas.Web

/-! ### Bytes of a character -/

theorem isChar_iff {c : Char} {b : UInt8} : isChar c b = true ↔ b.toNat = c.toNat := beq_iff_eq

/-- A byte of a text is an ASCII character just where the text has that character. -/
theorem isChar_bytesOf_iff {c : Char} (hc : c.toNat < 128) {s : String} :
    (∀ b ∈ bytesOf s, isChar c b = false) ↔ c ∉ s.toList := by
  constructor
  · intro h hmem
    have hbyte : (UInt8.ofNat c.toNat).toNat = c.toNat := by
      rw [UInt8.toNat_ofNat']
      omega
    have hb := h _ ((Text.Utf8.mem_encode (by omega) s).2 ⟨c, hmem, hbyte.symm⟩)
    rw [isChar_iff.2 hbyte] at hb
    cases hb
  · intro h b hb
    cases hcb : isChar c b with
    | false => rfl
    | true =>
      rw [isChar_iff] at hcb
      obtain ⟨d, hd, hdb⟩ := (Text.Utf8.mem_encode (by omega) s).1 hb
      exact absurd (Char.toNat_inj.1 (hdb.trans hcb) ▸ hd) h

theorem bytesOf_append (s t : String) : bytesOf (s ++ t) = bytesOf s ++ bytesOf t := Text.Utf8.encode_append s t

theorem bytesOf_ne_nil {s : String} (h : s ≠ "") : bytesOf s ≠ [] :=
  fun hnil => h (Text.Utf8.encode_injective hnil)

/-! ### Cutting -/

section Cut
variable {p : UInt8 → Bool}

theorem cut_fst (p : UInt8 → Bool) (bs : Bytes) : (cut p bs).1 = bs.takeWhile (!p ·) := by
  unfold cut
  split <;> rfl

theorem cut_of_not_mem {bs : Bytes} (h : ∀ b ∈ bs, p b = false) : cut p bs = (bs, none) := by
  have hdrop : bs.dropWhile (!p ·) = [] := List.dropWhile_eq_nil_iff.2 fun b hb => by simp [h b hb]
  have htake : bs.takeWhile (!p ·) = bs := List.takeWhile_eq_self_iff.2 fun b hb => by simp [h b hb]
  rw [cut, hdrop, htake]

theorem cut_append {before after : Bytes} {b : UInt8} (h : ∀ x ∈ before, p x = false) (hb : p b = true) :
    cut p (before ++ b :: after) = (before, some after) := by
  have hdrop : (before ++ b :: after).dropWhile (!p ·) = b :: after := by
    rw [List.dropWhile_append_of_pos fun x hx => by simp [h x hx]]
    simp [hb]
  have htake : (before ++ b :: after).takeWhile (!p ·) = before := by
    rw [List.takeWhile_append_of_pos fun x hx => by simp [h x hx]]
    simp [hb]
  rw [cut, hdrop, htake]

/-- A text either has no byte of the class or is what lies before and behind the first. -/
theorem cut_cases (p : UInt8 → Bool) (bs : Bytes) :
    (cut p bs = (bs, none) ∧ ∀ b ∈ bs, p b = false) ∨ ∃ before b after, bs = before ++ b :: after ∧
      cut p bs = (before, some after) ∧ (∀ x ∈ before, p x = false) ∧ p b = true := by
  cases hdrop : bs.dropWhile (!p ·) with
  | nil =>
    have hnone : ∀ b ∈ bs, p b = false := by simpa using hdrop
    exact .inl ⟨cut_of_not_mem hnone, hnone⟩
  | cons b after =>
    have hbs : bs = bs.takeWhile (!p ·) ++ b :: after := by
      rw [← hdrop, List.takeWhile_append_dropWhile]
    have hbefore : ∀ x ∈ bs.takeWhile (!p ·), p x = false := fun x hx => by
      simpa using List.mem_takeWhile_imp hx
    have hb : p b = true := by
      have hhead := List.head?_dropWhile_not (!p ·) bs
      simpa [hdrop] using hhead
    refine .inr ⟨_, b, after, hbs, ?_, hbefore, hb⟩
    rw [cut, hdrop]

/-- A start without a byte of the class stays with the text before the first. -/
theorem cut_append_left {start : Bytes} (h : ∀ x ∈ start, p x = false) (bs : Bytes) :
    cut p (start ++ bs) = (start ++ (cut p bs).1, (cut p bs).2) := by
  rcases cut_cases p bs with ⟨hcut, hnone⟩ | ⟨before, b, after, rfl, hcut, hbefore, hb⟩
  · rw [hcut, cut_of_not_mem]
    intro x hx
    rcases List.mem_append.1 hx with hx | hx
    · exact h x hx
    · exact hnone x hx
  · rw [hcut, ← List.append_assoc, cut_append _ hb]
    intro x hx
    rcases List.mem_append.1 hx with hx | hx
    · exact h x hx
    · exact hbefore x hx

theorem cut_isPrefix (p : UInt8 → Bool) (bs : Bytes) : (cut p bs).1 <+: bs :=
  cut_fst p bs ▸ List.takeWhile_prefix _

theorem cut_fst_eq_iff {bs : Bytes} : (cut p bs).1 = bs ↔ ∀ b ∈ bs, p b = false := by
  rcases cut_cases p bs with ⟨hcut, hnone⟩ | ⟨before, b, after, rfl, hcut, _, hb⟩
  · simp only [hcut, true_iff]
    exact hnone
  · rw [hcut]
    constructor
    · intro h
      simp at h
    · intro h
      simp [h b (by simp)] at hb

theorem pieces_of_not_mem {bs : Bytes} (h : ∀ b ∈ bs, p b = false) : pieces p bs = [bs] := by
  induction bs with
  | nil => rfl
  | cons b bs ih =>
    rw [pieces, if_neg (by simp [h b List.mem_cons_self]), ih fun x hx => h x (List.mem_cons_of_mem b hx)]

theorem pieces_ne_nil (p : UInt8 → Bool) (bs : Bytes) : pieces p bs ≠ [] := by
  cases bs with
  | nil => exact List.cons_ne_nil _ _
  | cons b bs =>
    unfold pieces
    split
    · exact List.cons_ne_nil _ _
    · split <;> exact List.cons_ne_nil _ _

/-- A piece is the whole text or shorter. -/
theorem eq_or_length_lt_of_mem_pieces {bs piece : Bytes} (h : piece ∈ pieces p bs) :
    piece = bs ∨ piece.length < bs.length := by
  induction bs generalizing piece with
  | nil => exact .inl (List.mem_singleton.1 h)
  | cons b bs ih =>
    have hshort : ∀ {piece}, piece ∈ pieces p bs → piece.length ≤ bs.length := by
      intro piece hpiece
      rcases ih hpiece with rfl | hlt
      · exact Nat.le_refl _
      · exact Nat.le_of_lt hlt
    rw [pieces] at h
    split at h
    · rcases List.mem_cons.1 h with rfl | h
      · exact .inr (by simp)
      · exact .inr (Nat.lt_succ_of_le (hshort h))
    · cases hpieces : pieces p bs with
      | nil => exact absurd hpieces (pieces_ne_nil p bs)
      | cons first others =>
        rw [hpieces] at h
        rcases List.mem_cons.1 h with rfl | h
        · rcases ih (hpieces ▸ List.mem_cons_self) with rfl | hlt
          · exact .inl rfl
          · exact .inr (Nat.succ_lt_succ hlt)
        · exact .inr (Nat.lt_succ_of_le (hshort (hpieces ▸ List.mem_cons_of_mem first h)))

/-- No piece has a separator. -/
theorem not_mem_of_mem_pieces {bs piece : Bytes} (h : piece ∈ pieces p bs) : ∀ b ∈ piece, p b = false := by
  induction bs generalizing piece with
  | nil =>
    obtain rfl := List.mem_singleton.1 h
    simp
  | cons b bs ih =>
    rw [pieces] at h
    split at h
    · rcases List.mem_cons.1 h with rfl | h
      · simp
      · exact ih h
    · rename_i hb
      cases hpieces : pieces p bs with
      | nil => exact absurd hpieces (pieces_ne_nil p bs)
      | cons first others =>
        rw [hpieces] at h
        rcases List.mem_cons.1 h with rfl | h
        · intro x hx
          rcases List.mem_cons.1 hx with rfl | hx
          · simpa using hb
          · exact ih (hpieces ▸ List.mem_cons_self) x hx
        · exact ih (hpieces ▸ List.mem_cons_of_mem first h)

end Cut

/-! ### Escapes -/

section Unescape
variable {part : Part} {bs out : Bytes}

theorem isChar_percent_of_hexValue? {b : UInt8} {n : Nat} (h : hexValue? b = some n) : isChar '%' b = false := by
  have hb : b.toNat ≠ 37 := by
    intro hb
    simp [hexValue?, hb] at h
  simpa [isChar] using hb

/-- Every escape takes three bytes and gives one. -/
theorem length_unescape (h : unescape part bs = .ok out) : out.length + 2 * bs.countP (isChar '%') = bs.length := by
  fun_induction unescape part bs generalizing out with
  | case1 =>
    obtain rfl := Except.ok.inj h
    rfl
  | case2 b hb x y tail high low hlow hhigh hmay ih =>
    obtain ⟨rest, hrest, rfl⟩ := map_eq_ok.1 h
    have hx := isChar_percent_of_hexValue? hhigh
    have hy := isChar_percent_of_hexValue? hlow
    have hlen := ih hrest
    simp only [List.countP_cons, hb, hx, hy, List.length_cons, if_true, Bool.false_eq_true, if_false]
    omega
  | case3 => cases h
  | case4 => cases h
  | case5 => cases h
  | case6 b rest hb hplus ih =>
    obtain ⟨rest, hrest, rfl⟩ := map_eq_ok.1 h
    have hlen := ih hrest
    simp only [List.countP_cons, hb, List.length_cons, Bool.false_eq_true, if_false]
    omega
  | case7 => cases h
  | case8 b rest hb hplus hhost ih =>
    obtain ⟨rest, hrest, rfl⟩ := map_eq_ok.1 h
    have hlen := ih hrest
    simp only [List.countP_cons, hb, List.length_cons, Bool.false_eq_true, if_false]
    omega

/-- A text without escapes is read as it stands, but for the plus signs of a query. -/
theorem unescape_of_no_percent (hpart : part ≠ .host ∧ part ≠ .zone) (h : ∀ b ∈ bs, isChar '%' b = false) :
    unescape part bs = .ok (bs.map fun b => if part = .query ∧ isChar '+' b then 32 else b) := by
  induction bs with
  | nil => rw [unescape, List.map_nil]
  | cons b bs ih =>
    have hb := h b List.mem_cons_self
    have hrest := ih fun x hx => h x (List.mem_cons_of_mem b hx)
    have hhost : ¬ ((part = .host ∨ part = .zone) ∧ b < 128 ∧ (!isHostByte b) = true) := by
      rintro ⟨rfl | rfl, -⟩
      · exact hpart.1 rfl
      · exact hpart.2 rfl
    unfold unescape
    rw [if_neg (by simp [hb]), hrest, List.map_cons]
    by_cases hplus : part = .query ∧ isChar '+' b = true
    · rw [if_pos hplus, if_pos hplus]
      rfl
    · rw [if_neg hplus, if_neg hhost, if_neg hplus]
      rfl

/-- The part of a query that is read as itself. -/
theorem unescape_query_eq_self_iff :
    unescape .query bs = .ok bs ↔ ∀ b ∈ bs, isChar '%' b = false ∧ isChar '+' b = false := by
  have hplain : (.query : Part) ≠ .host ∧ (.query : Part) ≠ .zone := by decide
  constructor
  · intro h
    have hnone : ∀ b ∈ bs, isChar '%' b = false := by
      have hlen := length_unescape h
      have hcount : bs.countP (isChar '%') = 0 := by omega
      simpa [List.countP_eq_zero] using hcount
    rw [unescape_of_no_percent hplain hnone] at h
    have hmap := List.map_inj_left.1 ((Except.ok.inj h).trans (List.map_id bs).symm)
    refine fun b hb => ⟨hnone b hb, ?_⟩
    have hsame : (if _ then _ else _) = b := hmap b hb
    cases hplus : isChar '+' b with
    | false => rfl
    | true =>
      rw [if_pos ⟨rfl, hplus⟩] at hsame
      rw [← hsame] at hplus
      exact absurd hplus (by decide)
  · intro h
    rw [unescape_of_no_percent hplain fun b hb => (h b hb).1]
    refine congrArg _ ((List.map_congr_left fun b hb => ?_).trans (List.map_id bs))
    exact if_neg (by simp [(h b hb).2])

end Unescape

/-! ### The query of an address -/

/-- A scheme in front of an address has no question mark. -/
theorem cut_splitScheme {text scheme rest : Bytes} (h : splitScheme text = .ok (scheme, rest)) :
    (cut (isChar '?') text).2 = (cut (isChar '?') rest).2 := by
  have hscheme : ∀ b ∈ text.takeWhile (fun b => isAlphanumeric b || isOneOf "+-." b), isChar '?' b = false := by
    intro b hb
    have hclass := List.mem_takeWhile_imp hb
    cases hmark : isChar '?' b with
    | false => rfl
    | true =>
      obtain rfl : b = 63 := UInt8.toNat_inj.1 (isChar_iff.1 hmark)
      exact absurd hclass (by decide)
  unfold splitScheme at h
  generalize htake : text.takeWhile (fun b => isAlphanumeric b || isOneOf "+-." b) = start at h hscheme
  have htext : start ++ text.drop start.length = text :=
    List.prefix_iff_eq_append.1 (htake ▸ List.takeWhile_prefix _)
  dsimp only at h
  split at h
  · rename_i b after hdrop
    split at h
    · cases h
    · obtain ⟨rfl, rfl⟩ := Prod.mk.inj (Except.ok.inj h)
      rw [← htext, hdrop]
      rfl
  · rename_i b after first tail hdrop
    split at h
    · rename_i hcolon
      obtain ⟨rfl, rfl⟩ := Prod.mk.inj (Except.ok.inj h)
      have hb : isChar '?' b = false := by
        have := isChar_iff.1 hcolon.1
        simp [isChar, this]
      rw [← htext, hdrop, List.append_cons, cut_append_left]
      intro x hx
      rcases List.mem_append.1 hx with hx | hx
      · exact hscheme x hx
      · rwa [List.mem_singleton.1 hx]
    · obtain ⟨rfl, rfl⟩ := Prod.mk.inj (Except.ok.inj h)
      rfl
  · obtain ⟨rfl, rfl⟩ := Prod.mk.inj (Except.ok.inj h)
    rfl

/-- The host and the path leave the query alone. -/
theorem query_of_parts {hasHost : Bool} {scheme authority path rest query : Bytes} {u : Url}
    (h : (if hasHost = true then do
        let host ← parseAuthority authority
        let p ← unescape .path path
        pure (⟨scheme, host, path, p, query⟩ : Url)
      else do
        let p ← unescape .path rest
        pure ⟨scheme, [], rest, p, query⟩) = .ok u) : u.query = query := by
  cases hasHost with
  | true =>
    obtain ⟨_, _, h⟩ := bind_eq_ok.1 h
    obtain ⟨_, _, h⟩ := bind_eq_ok.1 h
    rw [pure_eq_ok.1 h]
  | false =>
    obtain ⟨_, _, h⟩ := bind_eq_ok.1 h
    rw [pure_eq_ok.1 h]

theorem query_parseWhole {inRequest : Bool} {text : Bytes} {u : Url} (h : Url.parseWhole inRequest text = .ok u) :
    u.query = (cut (isChar '?') text).2.getD [] := by
  unfold Url.parseWhole at h
  dsimp only at h
  by_cases hcontrol : text.any isControl = true
  · rw [if_pos hcontrol] at h
    cases h
  rw [if_neg hcontrol] at h
  by_cases hstar : text = bytesOf "*"
  · rw [if_pos hstar] at h
    rw [pure_eq_ok.1 h, hstar]
    decide
  rw [if_neg hstar] at h
  obtain ⟨⟨scheme, rest⟩, hscheme, hparts⟩ := bind_eq_ok.1 h
  rw [cut_splitScheme hscheme]
  dsimp only at hparts
  split at hparts
  · rw [pure_eq_ok.1 hparts]
  split at hparts
  · split at hparts
    · cases hparts
    · split at hparts
      · cases hparts
      · exact query_of_parts hparts
  · exact query_of_parts hparts

/-- What stands behind the first question mark, up to a number sign. -/
def queryOf (address : Bytes) : Bytes := (cut (isChar '?') (cut (isChar '#') address).1).2.getD []

theorem parse_eq_ok {text : Bytes} {u : Url} :
    Url.parse text = .ok u ↔ Url.parseWhole false (cut (isChar '#') text).1 = .ok u ∧
      ∃ fragment, unescape .fragment ((cut (isChar '#') text).2.getD []) = .ok fragment := by
  unfold Url.parse
  simp only [bind_eq_ok, mapError_eq_ok, pure_eq_ok]
  constructor
  · rintro ⟨u', hu', fragment, hfragment, rfl⟩
    exact ⟨hu', fragment, hfragment⟩
  · rintro ⟨hu, fragment, hfragment⟩
    exact ⟨u, hu, fragment, hfragment, rfl⟩

/-- The query that is read of an address is the one that it has. -/
theorem query_parse {text : Bytes} {u : Url} (h : Url.parse text = .ok u) : u.query = queryOf text :=
  query_parseWhole (parse_eq_ok.1 h).1

/-! ### Rooted addresses -/

/-- The address starts with a path, not with a scheme or a host. -/
def IsRooted (address : Bytes) : Prop := ∃ rest, address = 47 :: rest ∧ rest.head?.any isSlash = false

theorem isRooted_cut {p : UInt8 → Bool} (hp : p 47 = false) {address : Bytes} (h : IsRooted address) :
    IsRooted (cut p address).1 := by
  obtain ⟨rest, rfl, hrest⟩ := h
  have hstart : ∀ b ∈ [(47 : UInt8)], p b = false := by simpa using hp
  refine ⟨_, congrArg Prod.fst (cut_append_left hstart rest), ?_⟩
  obtain ⟨after, hafter⟩ := cut_isPrefix p rest
  show (cut p rest).1.head?.any isSlash = false
  cases hbefore : (cut p rest).1 with
  | nil => rfl
  | cons b before =>
    rw [hbefore] at hafter
    rw [← hafter] at hrest
    exact hrest

namespace IsRooted
variable {address : Bytes}

theorem ne_star (h : IsRooted address) : address ≠ bytesOf "*" := by
  obtain ⟨rest, rfl, -⟩ := h
  intro heq
  exact absurd (List.cons.inj heq).1 (by decide)

theorem splitScheme_eq (h : IsRooted address) : splitScheme address = .ok ([], address) := by
  obtain ⟨rest, rfl, -⟩ := h
  have hstart : (47 :: rest).takeWhile (fun b => isAlphanumeric b || isOneOf "+-." b) = [] :=
    List.takeWhile_cons_of_neg (by decide)
  rw [splitScheme, hstart]
  rfl

theorem startsWith_slash (h : IsRooted address) : startsWith address (bytesOf "/") = true := by
  obtain ⟨rest, rfl, -⟩ := h
  rfl

/-- With a second slash behind the first one, a host would follow. -/
theorem not_startsWith_slashes (h : IsRooted address) : startsWith address (bytesOf "//") = false := by
  obtain ⟨rest, rfl, hrest⟩ := h
  cases rest with
  | nil => rfl
  | cons b rest =>
    have hb : b ≠ 47 := by
      rintro rfl
      have hslash : isSlash 47 = false := hrest
      exact absurd hslash (by decide)
    show ((47 : UInt8) == 47 && ((47 : UInt8) == b && true)) = false
    simp [hb.symm]

end IsRooted

/-- How a rooted address without a fragment is read. -/
theorem parseWhole_rooted {text : Bytes} (h : IsRooted text) (inRequest : Bool) {u : Url} :
    Url.parseWhole inRequest text = .ok u ↔ (∀ b ∈ text, isControl b = false) ∧
      ∃ path, unescape .path (cut (isChar '?') text).1 = .ok path ∧
        u = ⟨[], [], (cut (isChar '?') text).1, path, (cut (isChar '?') text).2.getD []⟩ := by
  have hbefore : IsRooted (cut (isChar '?') text).1 := isRooted_cut (by decide) h
  unfold Url.parseWhole
  by_cases hcontrol : text.any isControl = true
  · rw [if_pos hcontrol]
    constructor
    · intro hok
      cases hok
    · rintro ⟨hnone, _⟩
      obtain ⟨b, hb, hcontrol⟩ := List.any_eq_true.1 hcontrol
      rw [hnone b hb] at hcontrol
      cases hcontrol
  · have hnone : ∀ b ∈ text, isControl b = false := by simpa using hcontrol
    rw [if_neg hcontrol, if_neg h.ne_star, h.splitScheme_eq]
    dsimp only [bind, Except.bind]
    rw [hbefore.startsWith_slash, hbefore.not_startsWith_slashes, if_neg (by simp), if_neg (by simp), if_neg (by simp)]
    cases unescape .path (cut (isChar '?') text).1 with
    | error e => simp
    | ok path =>
      constructor
      · intro hok
        exact ⟨hnone, path, rfl, (Except.ok.inj hok).symm⟩
      · rintro ⟨_, path', hpath, rfl⟩
        rw [Except.ok.inj hpath]
        rfl

/-- A rooted address of nothing but a path is read as that path. -/
theorem parse_path {text path : Bytes} (h : IsRooted text) (hcontrol : ∀ b ∈ text, isControl b = false)
    (hquery : ∀ b ∈ text, isChar '?' b = false) (hfragment : ∀ b ∈ text, isChar '#' b = false)
    (hpath : unescape .path text = .ok path) :
    Url.parse text = .ok ⟨[], [], text, path, []⟩ ∧
      ∀ inRequest, Url.parseWhole inRequest text = .ok ⟨[], [], text, path, []⟩ := by
  have hwhole : ∀ inRequest, Url.parseWhole inRequest text = .ok ⟨[], [], text, path, []⟩ := by
    intro inRequest
    rw [parseWhole_rooted h, cut_of_not_mem hquery]
    exact ⟨hcontrol, path, hpath, rfl⟩
  refine ⟨?_, hwhole⟩
  rw [parse_eq_ok, cut_of_not_mem hfragment]
  exact ⟨hwhole false, [], by rw [Option.getD_none, unescape]⟩

end ClassAtlas.Web
