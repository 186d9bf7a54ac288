import ClassAtlas.Proofs.Index.Records
import ClassAtlas.Proofs.Web.Escapes
import ClassAtlas.Proofs.Web.Links

/-! From a search to the document that it finds.

A redirection makes the path of its address normal and escapes what a header cannot show. The address
that a client reads from it names the same path exactly when that path is normal and has no control
byte, percent sign, question mark or number sign (`names_location_iff`): everything else makes what
is read shorter than what was written. A document is therefore opened by the redirection to it when
its path is such a path, and a path that starts with a slash leads to the one without
(`redirect_opens`). -/
namespace ClassAtlas.Web

/-! ### Where an address leads -/

/-- Bytes that stand for themselves in the path of an address. -/
def IsPlain (path : Bytes) : Prop := ∀ b ∈ path, isControl b = false ∧ isOneOf "%?#" b = false

instance (path : Bytes) : Decidable (IsPlain path) :=
  decidable_of_iff ((path.all fun b => !isControl b && !isOneOf "%?#" b) = true) (by simp [IsPlain])

theorem IsPlain.isChar {path : Bytes} (h : IsPlain path) {c : Char} (hc : c ∈ "%?#".toList) :
    ∀ b ∈ path, isChar c b = false := by
  intro b hb
  have hnone := (h b hb).2
  rw [isOneOf, List.any_eq_false] at hnone
  simpa using hnone c hc

theorem isPlain_append {a b : Bytes} : IsPlain (a ++ b) ↔ IsPlain a ∧ IsPlain b := List.forall_mem_append

theorem isRooted_asciiText {address : Bytes} (h : IsRooted address) : IsRooted (asciiText address) := by
  obtain ⟨rest, rfl, hrest⟩ := h
  refine ⟨asciiText rest, rfl, ?_⟩
  cases rest with
  | nil => rfl
  | cons b rest =>
    have hb : b ≠ 47 := by
      rintro rfl
      exact absurd hrest (by decide : isSlash 47 ≠ false)
    obtain ⟨x, xs, hx⟩ := List.exists_cons_of_ne_nil (keepsSegments_asciiByte.ne_nil b)
    have hslash := keepsSegments_asciiByte.isSlash hb x (by simp [hx])
    rw [asciiText, List.flatMap_cons, hx]
    exact hslash

/-- A redirection leaves an address that cannot be read as it is, and otherwise the query. -/
theorem destination_cases {address : Bytes} (h : IsRooted address) : destination address = address ∨
    ∃ before after, address = 47 :: before ++ after ∧ after.head?.any isSlash = false ∧
      destination address = cleanPath (47 :: before) ++ after := by
  have hsplit : ∃ before after, address = 47 :: before ++ after ∧ after.head?.any isSlash = false ∧
      address.takeWhile (!isChar '?' ·) = 47 :: before := by
    obtain ⟨before, hbefore, _⟩ := isRooted_cut (p := isChar '?') (by decide) h
    rw [cut_fst] at hbefore
    refine ⟨before, address.dropWhile (!isChar '?' ·), ?_, ?_, hbefore⟩
    · rw [← hbefore, List.takeWhile_append_dropWhile]
    · have hhead := List.head?_dropWhile_not (!isChar '?' ·) address
      cases hafter : address.dropWhile (!isChar '?' ·) with
      | nil => rfl
      | cons b after =>
        have hb : isChar '?' b = true := by simpa [hafter] using hhead
        show isSlash b = false
        rw [isSlash, isChar, isChar_iff.1 hb]
        rfl
  obtain ⟨before, after, haddress, hafter, hpath⟩ := hsplit
  unfold destination
  split
  · split
    · refine .inr ⟨before, after, haddress, hafter, ?_⟩
      dsimp only
      rw [hpath, haddress, List.drop_left]
    · exact .inl rfl
  · exact .inl rfl

theorem isRooted_destination {address : Bytes} (h : IsRooted address) : IsRooted (destination address) := by
  rcases destination_cases h with heq | ⟨before, after, _, hafter, heq⟩
  · rwa [heq]
  · obtain ⟨rest, hclean, hrest⟩ := isRooted_cleanPath before
    refine ⟨rest ++ after, by rw [heq, hclean, List.cons_append], ?_⟩
    cases rest with
    | nil => exact hafter
    | cons b rest => exact hrest

/-- Making a path normal never makes the address longer. -/
theorem length_destination_le {address : Bytes} (h : IsRooted address) :
    (destination address).length ≤ address.length := by
  rcases destination_cases h with heq | ⟨before, after, haddress, _, heq⟩
  · rw [heq]
  · have hclean := length_cleanPath_le before
    rw [heq, haddress, List.length_append, List.length_append]
    omega

theorem destination_plain {address : Bytes} (h : IsRooted address) (hplain : IsPlain address) :
    destination address = cleanPath address := by
  have hpath : unescape .path address = .ok address := by
    rw [unescape_of_no_percent (by decide) (hplain.isChar (by decide))]
    simp
  obtain ⟨hparse, _⟩ := parse_path h (fun b hb => (hplain b hb).1) (hplain.isChar (by decide))
    (hplain.isChar (by decide)) hpath
  have htake := cut_fst_eq_iff.2 (hplain.isChar (by decide : '?' ∈ _))
  rw [cut_fst] at htake
  unfold destination
  rw [hparse]
  simp [htake]

/-- What a header says is read as a rooted address whose bytes stand for themselves. -/
theorem parse_asciiText {address : Bytes} (h : IsRooted address) (hplain : IsPlain address) :
    Url.parse (asciiText address) = .ok ⟨[], [], asciiText address, address, []⟩ ∧
      ∀ inRequest, Url.parseWhole inRequest (asciiText address) = .ok ⟨[], [], asciiText address, address, []⟩ := by
  have hmark : ∀ c ∈ ['?', '#'], ∀ b ∈ asciiText address, isChar c b = false := by
    have hmarks : ∀ c ∈ ['?', '#'], c ∈ "/.?#&;=".toList ∧ c ∈ "%?#".toList :=
      forall_mem_of_all (by decide)
    intro c hc
    rw [← cut_fst_eq_iff, cut_asciiText (hmarks c hc).1, cut_fst_eq_iff.2 (hplain.isChar (hmarks c hc).2)]
  have hcontrol := isControl_asciiText_iff.2 fun b hb => (hplain b hb).1
  exact parse_path (isRooted_asciiText h) hcontrol (hmark '?' (by simp)) (hmark '#' (by simp))
    (unescape_asciiText (hplain.isChar (by decide)))

/-- What a header is read as is shorter than the address in it unless the address's bytes stand for
themselves. -/
theorem isPlain_of_length_le {address : Bytes} (h : IsRooted address) {u : Url}
    (hu : Url.parse (asciiText address) = .ok u) (hlong : address.length ≤ u.path.length) : IsPlain address := by
  obtain ⟨hwhole, _⟩ := parse_eq_ok.1 hu
  rw [parseWhole_rooted (isRooted_cut (by decide) (isRooted_asciiText h)), cut_asciiText (by decide),
    cut_asciiText (by decide), isControl_asciiText_iff] at hwhole
  obtain ⟨hcontrol, path, hpath, rfl⟩ := hwhole
  have hlong' : address.length ≤ path.length := hlong
  have hlength := length_unescape_asciiText hpath
  -- What is read is a start of the address and as long, so nothing was cut off.
  have hfragment := cut_isPrefix (isChar '#') address
  have hquery := cut_isPrefix (isChar '?') (cut (isChar '#') address).1
  have hcutFragment := hfragment.eq_of_length_le (by have := hquery.length_le; omega)
  rw [hcutFragment] at hquery hlength hcontrol
  have hcutQuery := hquery.eq_of_length_le (by omega)
  rw [hcutQuery] at hlength
  have hpercent : ∀ b ∈ address, isChar '%' b = false := by
    have hcount : address.countP (isChar '%') = 0 := by omega
    simpa [List.countP_eq_zero] using hcount
  intro b hb
  refine ⟨hcontrol b hb, ?_⟩
  simp [isOneOf, hpercent b hb, cut_fst_eq_iff.1 hcutFragment b hb, cut_fst_eq_iff.1 hcutQuery b hb]

/-- **A redirection to an address leads to its path exactly when the path is normal and its bytes
stand for themselves.** -/
theorem names_location_iff {address : Bytes} (h : IsRooted address) :
    (∃ u, Url.parse (bytesOf (headerText (destination address))) = .ok u ∧ u.path = address) ↔
      IsPlain address ∧ cleanPath address = address := by
  rw [bytesOf_headerText]
  constructor
  · intro hread
    obtain ⟨u, hu, hpath⟩ := hread
    have hplace := isRooted_destination h
    have hshort : (destination address).length ≤ u.path.length := hpath.symm ▸ length_destination_le h
    have hplain := isPlain_of_length_le hplace hu hshort
    rw [(parse_asciiText hplace hplain).1] at hu
    obtain rfl := Except.ok.inj hu
    have hsame : destination address = address := hpath
    rw [hsame] at hplain
    exact ⟨hplain, (destination_plain h hplain).symm.trans hsame⟩
  · intro ⟨hplain, hclean⟩
    rw [destination_plain h hplain, hclean]
    exact ⟨_, (parse_asciiText h hplain).1, rfl⟩

/-! ### Routes -/

section Search
variable {ρ : Type}

theorem search_nil (steps : List Step) : search ([] : List (Candidate ρ)) steps = none := by
  induction steps with
  | nil => rfl
  | cons s more ih =>
    unfold search
    simp [advance, ih]

/-- A literal that fits comes before any wildcard. -/
theorem search_literal {cs : List (Candidate ρ)} {s : Step} {more : List Step} {m : Match ρ}
    (h : search (advance (· == .literal s.segment) cs) more = some m) : search cs (s :: more) = some m := by
  unfold search
  rw [h]
  rfl

theorem search_rest (name : Bytes) (pattern : Pattern) (target : ρ) (s : Step) (more : List Step) :
    search [⟨[.rest name], pattern, target⟩] (s :: more) = some ⟨pattern, target, unescapeOrKeep s.onward⟩ := by
  unfold search
  simp [advance, isOne, isRest, search_nil]

end Search

theorem stepsOf_cons (text : Bytes) {others : List Bytes} (h : others ≠ []) :
    stepsOf (text :: others) = ⟨unescapeOrKeep text, text ++ joinSegments others⟩ :: stepsOf others := by
  cases others with
  | nil => exact absurd rfl h
  | cons next others => rfl

/-- The first step of a path has all of it before it. -/
theorem stepsOf_pieces (path : Bytes) :
    ∃ first more, stepsOf (pieces isSlash path) = first :: more ∧ first.onward = path := by
  have hjoin := joinSegments_pieces path
  cases hpieces : pieces isSlash path with
  | nil => exact absurd hpieces (pieces_ne_nil _ _)
  | cons text others =>
    rw [hpieces, joinSegments_cons] at hjoin
    have hpath := (List.cons.inj hjoin).2
    cases others with
    | nil =>
      obtain rfl : text = path := by simpa [joinSegments] using hpath
      refine ⟨_, [], rfl, ?_⟩
      cases text <;> rfl
    | cons next others => exact ⟨_, _, stepsOf_cons text (by simp), hpath⟩

/-- The paths of documents below `/source/s?`. -/
def documentPattern : Pattern := [.literal (bytesOf "source"), .literal (bytesOf "xref"), .rest (bytesOf "path")]

/-- The server of the prefix `/source/s?`. -/
def sourceServer : Server where
  base := bytesOf "/source/xref/"
  routes := [([.literal (bytesOf "source"), .literal (bytesOf "s")], .search), (documentPattern, .document),
    ([.literal (bytesOf "/")], .listing)]

deriving instance DecidableEq for Server

theorem create_source : Server.create "/source/s?" = .ok sourceServer := by
  decide +kernel

namespace Server

/-- The steps to a document. -/
theorem steps_base (rest : Bytes) : ∃ onward onward' first more, steps (sourceServer.base ++ rest) =
    ⟨bytesOf "source", onward⟩ :: ⟨bytesOf "xref", onward'⟩ :: first :: more ∧ first.onward = rest := by
  have hdrop : (sourceServer.base ++ rest).drop 1 = bytesOf "source" ++ 47 :: (bytesOf "xref" ++ 47 :: rest) := rfl
  have hpieces : pieces isSlash ((sourceServer.base ++ rest).drop 1) =
      bytesOf "source" :: bytesOf "xref" :: pieces isSlash rest := by
    rw [hdrop, pieces_append_cons (by decide), pieces_append_cons (by decide)]
    rfl
  have hsource : unescapeOrKeep (bytesOf "source") = bytesOf "source" := by decide +kernel
  have hxref : unescapeOrKeep (bytesOf "xref") = bytesOf "xref" := by decide +kernel
  obtain ⟨first, more, hsteps, honward⟩ := stepsOf_pieces rest
  have hne := pieces_ne_nil isSlash rest
  rw [steps, hpieces, stepsOf_cons _ (by simp), stepsOf_cons _ hne, hsteps, hsource, hxref]
  exact ⟨_, _, first, more, rfl, honward⟩

/-- Below the base there are only documents. -/
theorem find?_base (rest : Bytes) : sourceServer.routes.find? (sourceServer.base ++ rest) =
    some ⟨documentPattern, .document, unescapeOrKeep rest⟩ := by
  have hslash : bytesOf "/" ≠ bytesOf "source" := by decide
  have hs : bytesOf "s" ≠ bytesOf "xref" := by decide
  obtain ⟨onward, onward', first, more, hsteps, honward⟩ := steps_base rest
  rw [Routes.find?, hsteps, ← honward]
  refine search_literal ?_
  have hfirst : advance (· == .literal (bytesOf "source")) (sourceServer.routes.map fun r => ⟨r.1, r.1, r.2⟩) =
      [⟨[.literal (bytesOf "s")], [.literal (bytesOf "source"), .literal (bytesOf "s")], .search⟩,
        ⟨[.literal (bytesOf "xref"), .rest (bytesOf "path")], documentPattern, .document⟩] := by
    simp [advance, sourceServer, documentPattern, hslash]
  rw [hfirst]
  refine search_literal ?_
  have hsecond : advance (· == .literal (bytesOf "xref"))
      [⟨[.literal (bytesOf "s")], [.literal (bytesOf "source"), .literal (bytesOf "s")], Handler.search⟩,
        ⟨[.literal (bytesOf "xref"), .rest (bytesOf "path")], documentPattern, .document⟩] =
      [⟨[.rest (bytesOf "path")], documentPattern, .document⟩] := by
    simp [advance, hs]
  rw [hsecond]
  exact search_rest _ _ _ first more

/-- No slash is missing at the end of a document's path. -/
theorem findExact?_slashed (rest : Bytes) :
    sourceServer.routes.findExact? (sourceServer.base ++ rest ++ bytesOf "/") = none := by
  have hcount : (sourceServer.base ++ (rest ++ bytesOf "/")).countP isSlash = 3 + (rest.countP isSlash + 1) := by
    rw [List.countP_append, List.countP_append]
    rfl
  have hrest : documentPattern.takesRest = true := rfl
  have hlength : documentPattern.length = 3 := rfl
  rw [Routes.findExact?, List.append_assoc, find?_base]
  simp only [Option.bind_eq_bind, Option.bind_some, hrest, hlength, hcount, guard]
  simp

/-- A normal path below the base is answered with the document that it names. -/
theorem respond_base (db : Index.Database) {u : Url} (accept : String) {rest : Bytes}
    (hwritten : u.writtenPath ≠ bytesOf "*") (hpath : u.escapedPath = sourceServer.base ++ rest)
    (hnormal : IsNormal rest) :
    sourceServer.respond db ⟨"GET", u, accept⟩ = answerDocument db ⟨"GET", u, accept⟩ (unescapeOrKeep rest) := by
  have hclean : cleanPath (sourceServer.base ++ rest) = sourceServer.base ++ rest := by
    have hbase : sourceServer.base ++ rest = 47 :: (bytesOf "source/xref" ++ 47 :: rest) := rfl
    rw [hbase, cleanPath_eq_self_iff (by simp), isNormal_append (by decide)]
    exact hnormal
  unfold respond
  simp only [hpath, hclean, findExact?_slashed, find?_base]
  simp [hwritten, answer]

/-! ### Visits -/

/-- The answer to a client that goes to an address. What stands behind a number sign stays with the
client. -/
def visit (s : Server) (db : Index.Database) (accept : String) (address : Bytes) : Except UrlFault Response :=
  (fun u => s.respond db ⟨"GET", u, accept⟩) <$> Url.parseWhole true (cut (isChar '#') address).1

/-- The page of a document that was looked up, or why there is none. -/
def opened (accept : String) : Except Index.StoreError Index.Document → Response
  | .ok d => if accept == "application/json" then .json d.toJson else .html (Page.document d)
  | .error (.notFound _) => .plain 404 "class not found"
  | .error e => storeFailure e

theorem answerDocument_bytes (db : Index.Database) (r : Request) (p : RawText) :
    answerDocument db r p.bytes = opened r.accept (db.get p) := by
  unfold answerDocument
  cases db.get p with
  | ok d => rfl
  | error e => cases e <;> rfl

end Server

/-- A path that an address shows as it is, but for bytes beyond ASCII. -/
def IsAddressable (p : RawText) : Prop := IsPlain p.bytes ∧ IsNormal p.bytes

instance (p : RawText) : Decidable (IsAddressable p) := inferInstanceAs (Decidable (_ ∧ _))

/-- The address of a document. -/
def documentAddress (p : RawText) : Bytes := sourceServer.base ++ p.bytes

theorem documentAddress_eq (p : RawText) :
    documentAddress p = 47 :: (bytesOf "source/xref" ++ 47 :: p.bytes) := rfl

theorem isRooted_documentAddress (p : RawText) : IsRooted (documentAddress p) := ⟨_, documentAddress_eq p, rfl⟩

theorem isPlain_documentAddress {p : RawText} : IsPlain (documentAddress p) ↔ IsPlain p.bytes := by
  rw [documentAddress, isPlain_append]
  exact and_iff_right (by decide)

theorem cleanPath_documentAddress {p : RawText} :
    cleanPath (documentAddress p) = documentAddress p ↔ IsNormal p.bytes := by
  rw [documentAddress_eq, cleanPath_eq_self_iff (by simp), isNormal_append (by decide)]

/-- The path of an address is kept as it was written or escaped anew, and either way is read as the
path of the document. -/
theorem escapedPath_documentAddress {p : RawText} (h : IsAddressable p) :
    ∃ rest, Url.escapedPath ⟨[], [], asciiText (documentAddress p), documentAddress p, []⟩ =
      sourceServer.base ++ rest ∧ IsNormal rest ∧ unescape .path rest = .ok p.bytes := by
  obtain ⟨hplain, hnormal⟩ := h
  unfold Url.escapedPath
  by_cases htext : isPathText (asciiText (documentAddress p)) = true
  · refine ⟨asciiText p.bytes, ?_, hnormal.flatMap keepsSegments_asciiByte,
      unescape_asciiText (hplain.isChar (by decide))⟩
    rw [if_pos htext, asciiText, documentAddress, List.flatMap_append]
    rfl
  · have hstar : documentAddress p ≠ bytesOf "*" := by
      intro heq
      exact absurd (List.cons.inj heq).1 (by decide)
    refine ⟨escapePath p.bytes, ?_, hnormal.flatMap keepsSegments_pathByte, unescape_escapePath _⟩
    rw [if_neg htext, if_neg hstar, escapePath_eq, documentAddress, List.flatMap_append]
    rfl

/-- A document is opened at its address. -/
theorem visit_documentAddress {p : RawText} (h : IsAddressable p) (db : Index.Database) (accept : String) :
    sourceServer.visit db accept (asciiText (documentAddress p)) = .ok (Server.opened accept (db.get p)) := by
  have hplain := isPlain_documentAddress.2 h.1
  have hwhole := (parse_asciiText (isRooted_documentAddress p) hplain).2 true
  have hfragment : (cut (isChar '#') (asciiText (documentAddress p))).1 = asciiText (documentAddress p) := by
    rw [cut_asciiText (by decide), cut_fst_eq_iff.2 (hplain.isChar (by decide))]
  have hstar : asciiText (documentAddress p) ≠ bytesOf "*" := by
    intro heq
    exact absurd (List.cons.inj heq).1 (by decide)
  obtain ⟨rest, hpath, hnormal, hread⟩ := escapedPath_documentAddress h
  have hrespond := Server.respond_base db accept hstar hpath hnormal
  rw [unescapeOrKeep, hread] at hrespond
  rw [Server.visit, hfragment, hwhole]
  exact congrArg Except.ok (hrespond.trans (Server.answerDocument_bytes db _ p))

/-- The query for a path, and the address that asks it. -/
def pathQuery (p : RawText) : Bytes := bytesOf "path" ++ 61 :: escapeQuery p.bytes

def searchAddress (p : RawText) : Bytes := bytesOf "/source/s" ++ 63 :: pathQuery p

theorem parse_pathQuery (p : RawText) : Query.parse (pathQuery p) = [(bytesOf "path", p.bytes)] := by
  have hstart : ∀ b ∈ bytesOf "path" ++ [61], isChar '&' b = false ∧ isChar ';' b = false :=
    forall_mem_of_all (by decide)
  have hsep : ∀ b ∈ pathQuery p, isChar '&' b = false ∧ isChar ';' b = false := by
    intro b hb
    rw [pathQuery, List.append_cons] at hb
    rcases List.mem_append.1 hb with hb | hb
    · exact hstart b hb
    · exact (mem_escapeQuery hb).1
  exact Query.parse_single (by decide) (forall_mem_of_all (by decide)) hsep (by decide +kernel)
    (unescape_escapeQuery _)

theorem parse_searchAddress (p : RawText) : Url.parseWhole true (cut (isChar '#') (searchAddress p)).1 =
    .ok ⟨[], [], bytesOf "/source/s", bytesOf "/source/s", pathQuery p⟩ := by
  have hstart : ∀ b ∈ bytesOf "/source/s?path=", isChar '#' b = false ∧ isControl b = false :=
    forall_mem_of_all (by decide)
  have hsplit : searchAddress p = bytesOf "/source/s?path=" ++ escapeQuery p.bytes := rfl
  have hbytes : ∀ b ∈ searchAddress p, isChar '#' b = false ∧ isControl b = false := by
    intro b hb
    rw [hsplit] at hb
    rcases List.mem_append.1 hb with hb | hb
    · exact hstart b hb
    · exact (mem_escapeQuery hb).2
  have hcut : cut (isChar '?') (searchAddress p) = (bytesOf "/source/s", some (pathQuery p)) :=
    cut_append (forall_mem_of_all (by decide)) (by decide)
  have hrooted : IsRooted (searchAddress p) := ⟨_, rfl, rfl⟩
  have hpath : unescape .path (bytesOf "/source/s") = .ok (bytesOf "/source/s") := by decide +kernel
  rw [cut_of_not_mem fun b hb => (hbytes b hb).1, parseWhole_rooted hrooted, hcut]
  exact ⟨fun b hb => (hbytes b hb).2, _, hpath, rfl⟩

/-- The search page is at its path. -/
theorem respond_search (db : Index.Database) {r : Request} (hmethod : r.method = "GET")
    (hwritten : r.target.writtenPath = bytesOf "/source/s") :
    sourceServer.respond db r = sourceServer.answerSearch db r := by
  have hpath : r.target.escapedPath = bytesOf "/source/s" := by
    rw [Url.escapedPath, hwritten]
    exact if_pos (by decide)
  have hclean : cleanPath (bytesOf "/source/s") = bytesOf "/source/s" := by decide
  have hexact : (sourceServer.routes.findExact? (bytesOf "/source/s")).isNone = false := by decide +kernel
  have hfind : (sourceServer.routes.find? (bytesOf "/source/s")).map (·.target) = some .search := by decide +kernel
  obtain ⟨m, hm, htarget⟩ := Option.map_eq_some_iff.1 hfind
  have hstar : bytesOf "/source/s" ≠ bytesOf "*" := by decide
  unfold Server.respond
  simp only [hpath, hclean, hexact, hm, hwritten, hmethod]
  simp [hstar, Server.answer, htarget]

theorem bytes_ne_nil {p : RawText} (hp : p ≠ .empty) : p.bytes ≠ [] := fun h => hp (congrArg RawText.mk h)

/-- A search for the path of a document sends the client to the address of the document. -/
theorem visit_searchAddress {db : Index.Database} {p : RawText} (hp : p ≠ .empty) (hdoc : (db.get p).isOk = true)
    (accept : String) : ∃ first, sourceServer.visit db accept (searchAddress p) = .ok first ∧
      first.status = 303 ∧ first.location = headerText (destination (documentAddress p)) := by
  let r : Request := ⟨"GET", ⟨[], [], bytesOf "/source/s", bytesOf "/source/s", pathQuery p⟩, accept⟩
  have hanswer : sourceServer.respond db r = redirect .seeOther r (documentAddress p) := by
    rw [respond_search db rfl rfl, Server.answerSearch_path _ _ (bytes_ne_nil hp) (parse_pathQuery p), Server.ask, if_pos hdoc]
    rfl
  rw [Server.visit, parse_searchAddress]
  exact ⟨_, congrArg Except.ok hanswer, rfl, rfl⟩

/-- The place that a search for an addressable path leads to is the address of the document. -/
theorem destination_documentAddress {p : RawText} (h : IsAddressable p) :
    destination (documentAddress p) = documentAddress p := by
  rw [destination_plain (isRooted_documentAddress p) (isPlain_documentAddress.2 h.1), cleanPath_documentAddress.2 h.2]

/-- A slash in front of a path is lost behind the slash of the base. -/
theorem destination_slash {q : RawText} (h : IsAddressable q) :
    destination (documentAddress ("/" ++ q)) = documentAddress q := by
  have hbytes : ("/" ++ q : RawText).bytes = bytesOf "/" ++ q.bytes := rfl
  have hplain : IsPlain ("/" ++ q : RawText).bytes := by
    rw [hbytes, isPlain_append]
    exact ⟨by decide, h.1⟩
  have hslashes : documentAddress ("/" ++ q) = 47 :: (bytesOf "source/xref" ++ 47 :: 47 :: q.bytes) := by
    rw [documentAddress_eq, hbytes]
    rfl
  rw [destination_plain (isRooted_documentAddress _) (isPlain_documentAddress.2 hplain), hslashes,
    cleanPath_double_slash, ← documentAddress_eq, cleanPath_documentAddress.2 h.2]

theorem not_isAddressable_slash (q : RawText) : ¬ IsAddressable ("/" ++ q) := by
  intro h
  have hempty : [] ∈ (pieces isSlash ("/" ++ q : RawText).bytes).dropLast := by
    show [] ∈ ([] :: pieces isSlash (q.bytes)).dropLast
    rw [List.dropLast_cons_of_ne_nil (pieces_ne_nil _ _)]
    exact List.mem_cons_self
  exact absurd (h.2.1 [] hempty) (by decide)

/-- **The redirection to a document names it exactly when its path is normal and its bytes stand for
themselves.** A search for the path of a document is answered with a redirection (303). Its location
names the path of the document if and only if that path has no empty segment but at its end, no
segment that is one or two dots, and no control byte, percent sign, question mark or number sign; the
client then gets the document. A path that starts with a slash never is such a path: the client is
sent to the path without the slash, whatever is there. -/
theorem redirect_opens {db : Index.Database} {p : RawText} {d : Index.Document} (hp : p ≠ .empty)
    (hget : db.get p = .ok d) (accept : String) :
    ∃ s first, Server.create "/source/s?" = .ok s ∧ s.visit db accept (searchAddress p) = .ok first ∧
      first.status = 303 ∧
      ((∃ u, Url.parse (bytesOf first.location) = .ok u ∧ u.path = s.base ++ p.bytes) ↔ IsAddressable p) ∧
      (IsAddressable p → s.visit db accept (bytesOf first.location) = .ok (Server.opened accept (.ok d))) ∧
      ∀ q, p = "/" ++ q → ¬ IsAddressable p ∧ (IsAddressable q →
        s.visit db accept (bytesOf first.location) = .ok (Server.opened accept (db.get q))) := by
  obtain ⟨first, hfirst, hstatus, hlocation⟩ := visit_searchAddress hp (by rw [hget]; rfl) accept
  refine ⟨sourceServer, first, create_source, hfirst, hstatus, ?_, ?_, ?_⟩
  · rw [hlocation, IsAddressable, ← isPlain_documentAddress, ← cleanPath_documentAddress]
    exact names_location_iff (isRooted_documentAddress p)
  · intro h
    rw [hlocation, destination_documentAddress h, bytesOf_headerText, visit_documentAddress h, hget]
  · intro q hq
    subst hq
    refine ⟨not_isAddressable_slash q, fun h => ?_⟩
    rw [hlocation, destination_slash h, bytesOf_headerText, visit_documentAddress h]

/-- A document under an absolute path is found and not shown. -/
theorem redirect_opens_absolute :
    let d : Index.Document := ⟨"/lib/A.class", "", "", none, none, none⟩
    let db : Index.Database := ⟨{ Index.Store.empty with docs := Index.Bucket.empty.insert d.path d.toRecord }, true⟩
    ("/lib/A.class" : RawText) ≠ .empty ∧ db.get "/lib/A.class" = .ok d ∧
      ∃ s first, Server.create "/source/s?" = .ok s ∧ s.visit db "" (searchAddress "/lib/A.class") = .ok first ∧
        first.status = 303 ∧ s.visit db "" (bytesOf first.location) = .ok (.plain 404 "class not found") := by
  intro d db
  have hp : ("/lib/A.class" : RawText) ≠ .empty := by decide
  have hget : db.get "/lib/A.class" = .ok d := by
    have hfound : db.store.docs.get? d.path = some d.toRecord := by
      rw [Index.Bucket.get?_insert, if_pos rfl]
    rw [Index.Database.get, Index.Database.view, if_pos rfl, Index.Store.get, hfound]
    dsimp only
    rw [Index.Document.ofRecord_toRecord, Index.Document.mended_eq_self (RawText.isText_ofString _)]
    rfl
  obtain ⟨s, first, hs, hfirst, hstatus, _, _, hslash⟩ := redirect_opens hp hget ""
  have hrest : db.get "lib/A.class" = .error (.notFound "lib/A.class") := by
    have hother : db.store.docs.get? "lib/A.class" = none := by
      rw [Index.Bucket.get?_insert, if_neg (by decide)]
      rfl
    rw [Index.Database.get, Index.Database.view, if_pos rfl, Index.Store.get, hother]
  have hopened := (hslash "lib/A.class" rfl).2 (by decide)
  rw [hrest] at hopened
  exact ⟨hp, hget, s, first, hs, hfirst, hstatus, hopened⟩

end ClassAtlas.Web
