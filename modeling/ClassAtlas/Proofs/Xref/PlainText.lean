import ClassAtlas.Proofs.Text.PlainText
import ClassAtlas.Proofs.Xref.Markup

/-! The plain text of a rendition.

A rendition is text with links in it. The plain text of a link is the value it shows, whatever the
value and wherever the link leads (`strip_link`), and text without brackets and ampersands is its own
plain text. So the plain text of a rendition is the text of the walk with bare values in the place of
links (`bareText`), as long as the texts that are written as they are have no markup in them. -/
namespace ClassAtlas.Xref
open ClassFile Text.PlainText

/-- What an item shows, a link being the value that it shows. -/
def Item.bare : Item → String
  | text s => s
  | link _ value => value
  | _ => ""

/-- The text of the walk over a class with each link replaced by its value. -/
def bareText (c : ClassModel) : Walk String := do
  let items ← Walk.items c
  return String.join (items.map Item.bare)

/-! ### Links -/

/-- The attributes of a link end where they should: the values in them are escaped. -/
theorem skipTag_link (links : Linker) (kind : LinkKind) (v : String) (rest : List Char) :
    skipTag .beforeKey ((Linker.anchorName kind v).toList ++ ("href".toList ++ '=' :: '"' ::
      ((Text.Markup.escape (links.address kind v)).toList ++ '"' :: '>' :: rest))) = some rest := by
  have hhref : skipTag .beforeKey ("href".toList ++ '=' :: '"' ::
      ((Text.Markup.escape (links.address kind v)).toList ++ '"' :: '>' :: rest)) = some rest := by
    rw [skipTag_attribute (by decide) (forall_mem_of_all (by decide)) (Text.Markup.not_mem_escape (by simp) _)]
    rfl
  by_cases hkind : kind = .definition ∧ v ≠ ""
  · -- The value also stands in the name attribute, in front of the address.
    have hname : ∀ cs, (Linker.anchorName kind v).toList ++ cs = "class".toList ++ '=' :: '"' :: ("d".toList ++
        '"' :: ' ' :: ("name".toList ++ '=' :: '"' :: ((Text.Markup.escape v).toList ++ '"' :: ' ' :: cs))) := by
      intro cs
      simp [Linker.anchorName, hkind]
    rw [hname, skipTag_attribute (by decide) (forall_mem_of_all (by decide)) (by decide), skipTag_blank,
      skipTag_attribute (by decide) (forall_mem_of_all (by decide)) (Text.Markup.not_mem_escape (by simp) _),
      skipTag_blank, hhref]
  · rw [Linker.anchorName, if_neg hkind, String.toList_empty, List.nil_append, hhref]

/-- **A link is the value it shows**, whatever follows it. -/
theorem strip_link (links : Linker) (kind : LinkKind) {v : String} (hreturn : '\r' ∉ v.toList) (fuel : Nat)
    (rest : List Char) :
    strip (fuel + 3) ((links.link kind v).toList ++ rest) = v.toList ++ strip (fuel + 1) rest := by
  have hlink : (links.link kind v).toList ++ rest = '<' :: 'a' :: ' ' :: ((Linker.anchorName kind v).toList ++
      ("href".toList ++ '=' :: '"' :: ((Text.Markup.escape (links.address kind v)).toList ++ '"' :: '>' ::
        ((Text.Markup.escape v).toList ++ '<' :: '/' :: 'a' :: '>' :: rest)))) := by
    simp [Linker.link]
  rw [hlink, strip_markup rfl (markup_anchor (skipTag_link links kind v _)), strip_escape hreturn,
    strip_markup rfl rfl]

/-! ### The rendition -/

/-- The plain text of written items. Each link takes two pieces of markup. -/
theorem strip_written (links : Linker) {items : List Item} (hopen : weight '<' items = 0)
    (hamp : weight '&' items = 0) (hreturn : tally '\r' (items.map Item.bare) = 0) {fuel : Nat}
    (hfuel : 2 * items.countP Item.isLink < fuel) :
    strip fuel (String.join (items.map (Item.write links))).toList = (String.join (items.map Item.bare)).toList := by
  obtain ⟨fuel, rfl⟩ : ∃ n, fuel = n + 1 := ⟨fuel - 1, by omega⟩
  induction items generalizing fuel with
  | nil => rfl
  | cons item items ih =>
    rw [List.map_cons, tally_cons] at hreturn
    rw [List.map_cons, List.map_cons, String.join_cons, String.join_cons, String.toList_append,
      String.toList_append]
    cases item with
    | text s =>
      rw [weight_cons_text] at hopen hamp
      have hs : '<' ∉ s.toList ∧ '&' ∉ s.toList ∧ '\r' ∉ s.toList := by
        simp only [← List.count_eq_zero]
        exact ⟨by omega, by omega, Nat.eq_zero_of_add_eq_zero_right hreturn⟩
      rw [List.countP_cons_of_neg Bool.false_ne_true] at hfuel
      rw [← ih (by omega) (by omega) (by omega) fuel hfuel]
      exact strip_plain hs.1 hs.2.1 hs.2.2 fuel _
    | link kind v =>
      rw [List.countP_cons_of_pos rfl] at hfuel
      obtain ⟨fuel, rfl⟩ : ∃ n, fuel = n + 2 := ⟨fuel - 2, by omega⟩
      rw [← ih hopen hamp (by omega) fuel (by omega)]
      exact strip_link links kind (List.count_eq_zero.1 (Nat.eq_zero_of_add_eq_zero_right hreturn)) fuel _
    | defines _ | uses _ | mark _ =>
      rw [List.countP_cons_of_neg Bool.false_ne_true] at hfuel
      exact ih hopen hamp (by omega) fuel hfuel

/-- **The plain text of a rendition is the text of its walk with bare values in the place of links.**
So it does not hang on where the links lead. The texts that are written as they are must have no
opening bracket and no ampersand, and nothing that is shown may have a carriage return; the values of
links are free otherwise. -/
theorem plainText_render {links : Linker} {c : ClassModel} {r : Rendition} (h : render links c = .ok r)
    (hverbatim : ∀ s ∈ verbatim c, '<' ∉ s.toList ∧ '&' ∉ s.toList) :
    ∃ text, bareText c = .ok text ∧ ('\r' ∉ text.toList → Text.plainText r.text = text ∧
      ∀ links', ∃ r', render links' c = .ok r' ∧ Text.plainText r'.text = text) := by
  obtain ⟨items, hitems, hr⟩ := bind_eq_ok.1 h
  have hopen : weight '<' items = 0 := by
    rw [Walk.items_weight (.inl rfl) hitems]
    exact tally_eq_zero.2 fun s hs => (hverbatim s hs).1
  have hamp : weight '&' items = 0 := by
    rw [Walk.items_weight (.inr (.inr rfl)) hitems]
    exact tally_eq_zero.2 fun s hs => (hverbatim s hs).2
  have hrender : ∀ links', ∃ r', render links' c = .ok r' ∧
      r'.text = String.join (items.map (Item.write links')) :=
    fun links' => ⟨_, bind_eq_ok.2 ⟨items, hitems, rfl⟩, rfl⟩
  refine ⟨String.join (items.map Item.bare), bind_eq_ok.2 ⟨items, hitems, rfl⟩, fun hreturn => ?_⟩
  have hplain : ∀ links', Text.plainText (String.join (items.map (Item.write links'))) =
      String.join (items.map Item.bare) := by
    intro links'
    have hlinks : 2 * items.countP Item.isLink ≤ (String.join (items.map (Item.write links'))).toList.length := by
      have hcount := count_written (.inl rfl) links' items
      have hle := List.count_le_length (a := '<') (l := (String.join (items.map (Item.write links'))).toList)
      omega
    rw [Text.plainText, strip_written links' hopen hamp, String.ofList_toList]
    · rw [← count_join]
      exact List.count_eq_zero.2 hreturn
    · omega
  refine ⟨?_, fun links' => ?_⟩
  · obtain rfl := pure_eq_ok.1 hr
    exact hplain links
  · obtain ⟨r', hr', htext⟩ := hrender links'
    exact ⟨r', hr', htext ▸ hplain links'⟩

/-- A class whose names have every character that markup gives a meaning to. -/
def oddClass : ClassModel where
  minor := 0
  major := 52
  pool := ⟨#[some (.utf8 "&lt;"), some (.classRef 1), some (.utf8 "a<b'&\""), some (.utf8 "Lx>y;")]⟩
  access := 0
  this := 2
  super := 0
  interfaces := []
  fields := [⟨0, 3, 4, []⟩]
  methods := []
  attributes := []

def oddRendition : Rendition where
  text := "<a href=\"/&#34;&gt;&lt;b&gt;?path=&lt;Unknown&gt;\">&lt;Unknown&gt;</a>\n" ++
    "<a class=\"d\" name=\"&amp;lt;\" href=\"/&#34;&gt;&lt;b&gt;?defs=&amp;lt;\">&amp;lt;</a> \x7b\n" ++
    "\tx>y <a class=\"d\" name=\"a&lt;b&#39;&amp;&#34;\" " ++
    "href=\"/&#34;&gt;&lt;b&gt;?defs=a&lt;b&#39;&amp;&#34;\">a&lt;b&#39;&amp;&#34;</a>\n\x7d\n"
  definitions := ["<Unknown>", "&lt;", "a<b'&\""]
  references := ["<Unknown>", "&lt;", "a<b'&\""]
  marks := ⟨#[false, true, true, true, true]⟩

/-- Names and the start of the addresses may look like markup. -/
theorem oddClass_plainText :
    render ⟨"/\"><b>?"⟩ oddClass = .ok oddRendition ∧
      Text.plainText oddRendition.text = "<Unknown>\n&lt; \x7b\n\tx>y a<b'&\"\n\x7d\n" := by
  have hrender : render ⟨"/\"><b>?"⟩ oddClass = .ok oddRendition := by decide +kernel
  have hbare : bareText oddClass = .ok "<Unknown>\n&lt; \x7b\n\tx>y a<b'&\"\n\x7d\n" := by decide +kernel
  obtain ⟨text, htext, hplain⟩ := plainText_render hrender (by decide +kernel)
  obtain rfl := Except.ok.inj (hbare.symm.trans htext)
  exact ⟨hrender, (hplain (by decide)).1⟩

end ClassAtlas.Xref
