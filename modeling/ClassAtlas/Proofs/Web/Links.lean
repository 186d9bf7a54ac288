import ClassAtlas.Proofs.Text.Escaping
import ClassAtlas.Proofs.Web.Queries
import ClassAtlas.Web.Server
import ClassAtlas.Xref.Link

/-! What a link asks for.

A link is written for markup and read as an address. The first is undone exactly: the address in
the tag (`attributes`), with its references replaced, is the one that the linker wrote
(`attributes_link`). The second gives some characters of the value a meaning that the linker did not
give them. `link_asks_iff` says which: the value comes back from the query of the address, and the
search page looks it up, if and only if it has none of them. -/
namespace ClassAtlas

/-! ### Attributes -/

namespace Text.Markup

/-- Where a reading of attributes stands, with what was read of the current one. -/
inductive Reading where
  | key (soFar : List Char)
  | opening (key : List Char)
  | value (key soFar : List Char)

/-- The attributes that follow in a tag, each a key and a quoted value. -/
def attributesFrom : Reading → List Char → List (List Char × List Char)
  | _, [] => []
  | .key k, c :: rest =>
    if c = '>' then []
    else if c = '=' then attributesFrom (.opening k) rest
    else attributesFrom (.key (if c = ' ' then [] else k ++ [c])) rest
  | .opening k, c :: rest => if c = '"' then attributesFrom (.value k []) rest else []
  | .value k v, c :: rest =>
    if c = '"' then (k, v) :: attributesFrom (.key []) rest
    else attributesFrom (.value k (v ++ [c])) rest

/-- The attributes of the tag that a text starts with. -/
def attributes (text : String) : List (List Char × List Char) := attributesFrom (.key []) text.toList

theorem attributesFrom_value {v : List Char} (h : '"' ∉ v) (k soFar rest : List Char) :
    attributesFrom (.value k soFar) (v ++ '"' :: rest) = (k, soFar ++ v) :: attributesFrom (.key []) rest := by
  induction v generalizing soFar with
  | nil => simp [attributesFrom]
  | cons c v ih =>
    simp only [List.mem_cons, not_or] at h
    rw [List.cons_append, attributesFrom, if_neg (Ne.symm h.1), ih h.2]
    simp

theorem attributesFrom_key {k : List Char} (h : ∀ c ∈ k, c ≠ '>' ∧ c ≠ '=' ∧ c ≠ ' ') (soFar rest : List Char) :
    attributesFrom (.key soFar) (k ++ '=' :: '"' :: rest) = attributesFrom (.value (soFar ++ k) []) rest := by
  induction k generalizing soFar with
  | nil => simp [attributesFrom]
  | cons c k ih =>
    obtain ⟨hclose, hequals, hblank⟩ := h c List.mem_cons_self
    rw [List.cons_append, attributesFrom, if_neg hclose, if_neg hequals, if_neg hblank,
      ih fun d hd => h d (List.mem_cons_of_mem c hd)]
    simp

theorem attributesFrom_blank (k rest : List Char) :
    attributesFrom (.key k) (' ' :: rest) = attributesFrom (.key []) rest := by
  simp [attributesFrom]

/-- A key and a value between quotation marks are an attribute. -/
theorem attributesFrom_attribute {k v : List Char} (hk : ∀ c ∈ k, c ≠ '>' ∧ c ≠ '=' ∧ c ≠ ' ') (hv : '"' ∉ v)
    (rest : List Char) : attributesFrom (.key []) (k ++ '=' :: '"' :: (v ++ '"' :: rest)) =
      (k, v) :: attributesFrom (.key []) rest := by
  rw [attributesFrom_key hk, attributesFrom_value hv]
  rfl

end Text.Markup

namespace Xref.Linker
open Text.Markup

/-- The address of a link is the value of its `href`, escaped. -/
theorem attributes_link (l : Linker) (kind : LinkKind) (v : String) :
    (attributes (l.link kind v)).lookup "href".toList = some (escape (l.address kind v)).toList := by
  have hhref : ∀ rest, attributesFrom (.key []) ("href".toList ++ '=' :: '"' ::
      ((escape (l.address kind v)).toList ++ '"' :: '>' :: rest)) =
        [("href".toList, (escape (l.address kind v)).toList)] := by
    intro rest
    rw [attributesFrom_attribute (forall_mem_of_all (by decide)) (not_mem_escape (by simp) _)]
    rfl
  have hlink : (l.link kind v).toList = '<' :: 'a' :: ' ' :: ((anchorName kind v).toList ++ ("href".toList ++
      '=' :: '"' :: ((escape (l.address kind v)).toList ++ '"' :: '>' :: ((escape v).toList ++ "</a>".toList)))) := by
    simp [link]
  have hstart : ∀ rest, attributesFrom (.key []) ('<' :: 'a' :: ' ' :: rest) = attributesFrom (.key []) rest := by
    intro rest
    simp [attributesFrom]
  rw [attributes, hlink, hstart]
  generalize (escape v).toList ++ "</a>".toList = rest
  by_cases hkind : kind = .definition ∧ v ≠ ""
  · -- The value also stands in the name attribute, in front of the address.
    have hname : ∀ rest, (anchorName kind v).toList ++ rest = "class".toList ++ '=' :: '"' :: ("d".toList ++
        '"' :: ' ' :: ("name".toList ++ '=' :: '"' :: ((escape v).toList ++ '"' :: ' ' :: rest))) := by
      intro rest
      simp [anchorName, hkind]
    rw [hname, attributesFrom_attribute (forall_mem_of_all (by decide)) (by decide), attributesFrom_blank,
      attributesFrom_attribute (forall_mem_of_all (by decide)) (not_mem_escape (by simp) _), attributesFrom_blank,
      hhref]
    simp [List.lookup_cons]
  · rw [anchorName, if_neg hkind, String.toList_empty, List.nil_append, hhref]
    simp

end Xref.Linker

namespace Web
open Xref

/-! ### What is asked -/

/-- A rooted path of unreserved characters and slashes, and a question mark. -/
def IsStem (stem : String) : Prop :=
  ∃ path : List Char, stem = String.ofList ('/' :: path ++ ['?']) ∧
    ∀ c ∈ path, c.isAlphanum = true ∨ c ∈ ['-', '_', '.', '~', '/']

/-- No character of the text has a meaning in a query or ends one. -/
def IsAskable (v : String) : Prop := ∀ c ∈ v.toList, c ∉ ['%', '+', '&', ';', '#']

instance (v : String) : Decidable (IsAskable v) :=
  decidable_of_iff ((v.toList.all fun c => decide (c ∉ ['%', '+', '&', ';', '#'])) = true) (by simp [IsAskable])

theorem queryOf_address {links : Linker} (hstem : IsStem links.stem) (kind : LinkKind) (v : String) :
    queryOf (bytesOf (links.address kind v)) =
      bytesOf kind.parameter ++ 61 :: (cut (isChar '#') (bytesOf v)).1 := by
  obtain ⟨path, hpath, hchars⟩ := hstem
  have hmark : ∀ c ∈ ['#', '?'], c ∉ '/' :: path := by
    intro c hc hmem
    rcases List.mem_cons.1 hmem with rfl | hmem
    · exact absurd hc (by decide)
    · have hclass := hchars c hmem
      simp only [List.mem_cons, List.not_mem_nil, or_false] at hc
      rcases hc with rfl | rfl <;> exact absurd hclass (by decide)
  have hstart : '#' ∉ (links.stem ++ kind.parameter ++ "=").toList := by
    rw [hpath]
    have := hmark '#' (by simp)
    cases kind <;> simp_all [LinkKind.parameter]
  have hquery : ∀ b ∈ bytesOf (String.ofList ('/' :: path)), isChar '?' b = false :=
    (isChar_bytesOf_iff (by decide)).2 (by simpa using hmark '?' (by simp))
  have hsplit : ∀ w, bytesOf (links.stem ++ kind.parameter ++ "=") ++ w =
      bytesOf (String.ofList ('/' :: path)) ++ 63 :: (bytesOf kind.parameter ++ 61 :: w) := by
    intro w
    rw [hpath, String.ofList_append]
    simp only [bytesOf_append, List.append_assoc]
    rfl
  rw [queryOf, Linker.address, bytesOf_append, cut_append_left ((isChar_bytesOf_iff (by decide)).2 hstart),
    hsplit, cut_append hquery (by decide)]
  rfl

theorem isPlain_parameter (kind : LinkKind) :
    Query.IsPlain (bytesOf kind.parameter) ∧ ∀ b ∈ bytesOf kind.parameter, isChar '=' b = false := by
  cases kind <;> exact ⟨by decide, forall_mem_of_all (by decide)⟩

/-- Text has no meaning in a query, nor ends one, just when none of its bytes does. -/
theorem isAskable_iff (v : String) :
    IsAskable v ↔ (∀ b ∈ bytesOf v, isChar '#' b = false) ∧ Query.IsPlain (bytesOf v) := by
  have hplain : Query.IsPlain (bytesOf v) ↔
      '%' ∉ v.toList ∧ '+' ∉ v.toList ∧ '&' ∉ v.toList ∧ ';' ∉ v.toList := by
    rw [← isChar_bytesOf_iff (by decide), ← isChar_bytesOf_iff (by decide), ← isChar_bytesOf_iff (by decide),
      ← isChar_bytesOf_iff (by decide)]
    simp [Query.IsPlain, isOneOf, forall_and]
  rw [hplain, isChar_bytesOf_iff (by decide), IsAskable]
  constructor
  · intro h
    exact ⟨fun hc => h _ hc (by decide), fun hc => h _ hc (by decide), fun hc => h _ hc (by decide),
      fun hc => h _ hc (by decide), fun hc => h _ hc (by decide)⟩
  · rintro ⟨hsharp, hpercent, hplus, hand, hsemi⟩ c hc hmem
    simp only [List.mem_cons, List.not_mem_nil, or_false] at hmem
    rcases hmem with rfl | rfl | rfl | rfl | rfl <;> contradiction

/-- What the query of a link says under the link's parameter. -/
theorem get_query_iff {links : Linker} (hstem : IsStem links.stem) (kind : LinkKind) {v : String} (hv : v ≠ "") :
    (Query.parse (queryOf (bytesOf (links.address kind v)))).get kind.parameter = bytesOf v ↔ IsAskable v := by
  obtain ⟨hplain, hcut⟩ := isPlain_parameter kind
  rw [queryOf_address hstem, Query.get_parse_iff (by decide) hplain hcut (cut_isPrefix _ _) (bytesOf_ne_nil hv),
    cut_fst_eq_iff, isAskable_iff]

/-! ### What is answered -/

namespace Server

/-- The answer that lists what a search found. -/
def listing (s : Server) (r : Request) (title : String) : Except Index.StoreError Index.Postings → Response
  | .ok paths => s.listPaths r title (paths.getD [])
  | .error e => storeFailure e

/-- The answer that a link is for: the document under a path, if there is one, and otherwise the
classes that define what the link shows. -/
def ask (s : Server) (db : Index.Database) (r : Request) (v : RawText) : LinkKind → Response
  | .path =>
    if (db.get v).isOk then redirect .seeOther r (s.base ++ v.bytes)
    else s.listing r ("Classes compiled from " ++ v.shown) (db.search .defs v)
  | .reference | .definition => s.listing r ("defs: " ++ v.shown) (db.search .defs v)

theorem fieldOf?_defs {value : Bytes} (hne : value ≠ []) :
    fieldOf? [(bytesOf "defs", value)] = some (.defs, value) := by
  have hget : Query.get [(bytesOf "defs", value)] (Index.Field.name .defs) = value := by
    simp [Query.get, Index.Field.name]
  rw [fieldOf?, Index.Field.all, List.findSome?_cons]
  simp [hget, hne]

section Search
variable (s : Server) (db : Index.Database) {r : Request} {v : RawText} (hv : v.bytes ≠ [])
include hv

theorem answerSearch_path (hr : Query.parse r.target.query = [(bytesOf "path", v.bytes)]) :
    s.answerSearch db r = s.ask db r v .path := by
  have hget : Query.get [(bytesOf "path", v.bytes)] "path" = v.bytes := by simp [Query.get]
  unfold answerSearch ask
  simp only [hr, hget]
  rw [if_pos (by simp [hv])]
  rfl

theorem answerSearch_defs (hr : Query.parse r.target.query = [(bytesOf "defs", v.bytes)]) :
    s.answerSearch db r = s.listing r ("defs: " ++ v.shown) (db.search .defs v) := by
  have hget : Query.get [(bytesOf "defs", v.bytes)] "path" = [] := by
    have hother : (bytesOf "path" == bytesOf "defs") = false := by decide
    simp [Query.get, List.lookup_cons, hother]
  unfold answerSearch
  simp only [hr, hget, fieldOf?_defs hv]
  rw [if_neg (by simp)]
  rfl

end Search

/-- A link that can be asked for is answered by what it is for. -/
theorem answerSearch_link (s : Server) (db : Index.Database) {r : Request} {v : String} (hv : v ≠ "")
    {links : Linker} (hstem : IsStem links.stem) {kind : LinkKind} (hask : IsAskable v)
    (hr : r.target.query = queryOf (bytesOf (links.address kind v))) : s.answerSearch db r = s.ask db r v kind := by
  have hne : (RawText.ofString v).bytes ≠ [] := bytesOf_ne_nil hv
  obtain ⟨hplain, hcut⟩ := isPlain_parameter kind
  obtain ⟨hsharp, hv'⟩ := (isAskable_iff v).1 hask
  have hparse : Query.parse r.target.query = [(bytesOf kind.parameter, bytesOf v)] := by
    rw [hr, queryOf_address hstem, cut_fst_eq_iff.2 hsharp]
    exact Query.parse_plain (by decide) hplain hcut hv'
  cases kind with
  | path => exact answerSearch_path s db hne hparse
  | reference => exact answerSearch_defs s db hne hparse
  | definition => exact answerSearch_defs s db hne hparse

end Server

/-- **A link asks for what it shows exactly when no character of it has a meaning in a query.** The
address in the link is read as the linker wrote it, and its query gives the value back under the
link's parameter, and the search page then looks up that value, if and only if the value has no
percent sign, plus sign, ampersand, semicolon or number sign. -/
theorem link_asks_iff {links : Linker} (hstem : IsStem links.stem) (kind : LinkKind) {v : String} (hv : v ≠ "") :
    ∃ href address, (Text.Markup.attributes (links.link kind v)).lookup "href".toList = some href ∧
      address = bytesOf (String.ofList (Text.References.unescape href)) ∧
      (∀ u, Url.parse address = .ok u → u.query = queryOf address) ∧
      ((Query.parse (queryOf address)).get kind.parameter = bytesOf v ↔ IsAskable v) ∧
      (IsAskable v → ∀ (s : Server) (db : Index.Database) (r : Request), r.target.query = queryOf address →
        s.answerSearch db r = s.ask db r v kind) := by
  have haddress : bytesOf (String.ofList (Text.References.unescape
      (Text.Markup.escape (links.address kind v)).toList)) = bytesOf (links.address kind v) := by
    rw [Text.References.unescape_escape, String.ofList_toList]
  refine ⟨_, _, links.attributes_link kind v, rfl, fun u hu => query_parse hu, ?_, fun hask s db r hr => ?_⟩
  · rw [haddress]
    exact get_query_iff hstem kind hv
  · rw [haddress] at hr
    exact Server.answerSearch_link s db hv hstem hask hr

/-- The link that shows `a+b` does not ask for it. -/
theorem link_asks_iff_plus :
    let links : Linker := ⟨"/source/s?"⟩
    IsStem links.stem ∧ "a+b" ≠ "" ∧
      ∃ href address, (Text.Markup.attributes (links.link .reference "a+b")).lookup "href".toList = some href ∧
        address = bytesOf (String.ofList (Text.References.unescape href)) ∧
        (Query.parse (queryOf address)).get "defs" ≠ bytesOf "a+b" := by
  intro links
  have hstem : IsStem links.stem := ⟨"source/s".toList, rfl, forall_mem_of_all (by decide)⟩
  have hv : "a+b" ≠ "" := by decide
  obtain ⟨href, address, hhref, haddress, _, hiff, _⟩ := link_asks_iff hstem .reference hv
  exact ⟨hstem, hv, href, address, hhref, haddress, fun h => absurd (hiff.1 h) (by decide)⟩

end Web
end ClassAtlas
