import ClassAtlas.Index.Record
import ClassAtlas.Proofs.Json.Reading
import ClassAtlas.Proofs.Text.Raw

/-! Records are read back.

A document and a posting list are written on one line, and reading the line gives them as they were
but for their paths, which come back as mended (`Document.ofRecord_toRecord`,
`Postings.ofRecord_toRecord`): an absent list stays absent, and an empty one empty. So a record loses
nothing of a document whose path spells characters. -/
namespace ClassAtlas.Index
open Json

theorem readTexts_strings (slot : Slot) (before xs : List String) :
    readTexts slot before (xs.map .string) = .fine xs := by
  induction xs generalizing before with
  | nil => rfl
  | cons x xs ih =>
    rw [List.map_cons, readTexts, ih]
    rfl

theorem readList_strings? (list element : Slot) (before given : Option (List String)) :
    readList list element before (.strings? given) = .fine given := by
  cases given with
  | none => rfl
  | some xs =>
    rw [Value.strings?, Value.strings, readList, readTexts_strings]
    rfl

theorem Document.fits_toJson (d : Document) : d.toJson.Fits maxDepth := by
  refine .object fun m hm => ?_
  simp only [List.mem_cons, List.not_mem_nil, or_false] at hm
  obtain rfl | rfl | rfl | rfl | rfl | rfl := hm
  · exact .string _
  · exact .string _
  · exact .string _
  · exact Value.fits_strings? _
  · exact Value.fits_strings? _
  · exact Value.fits_strings? _

/-- The document with its path as a record keeps it. -/
def Document.mended (d : Document) : Document := { d with path := d.path.mended }

@[simp] theorem Document.path_mended (d : Document) : d.mended.path = d.path.mended := rfl

@[simp] theorem Document.terms_mended (d : Document) (f : Field) : d.mended.terms f = d.terms f := by
  cases f <;> rfl

@[simp] theorem Document.termKeys_mended (d : Document) (f : Field) : d.mended.termKeys f = d.termKeys f := by
  rw [termKeys, terms_mended, termKeys]

theorem Document.mended_eq_self {d : Document} (h : d.path.IsText) : d.mended = d := by
  rw [mended, h.mended]

theorem Document.ofJson_toJson (d : Document) : ofJson d.toJson = .fine d.mended := by
  have hnames : ∀ name ∈ ["path", "digest", "text", "definitions", "references", "literals"],
      foldName name = name := by decide
  simp [ofJson, toJson, readMembers, readMember, hnames, readText, readList_strings?, Reading.fine, mended,
    RawText.mended]

/-- **A document is read back from its record**, its path as mended. -/
theorem Document.ofRecord_toRecord (d : Document) : ofRecord d.toRecord = .ok d.mended := by
  rw [ofRecord, readRecord, toRecord, RawText.shown_ofString, parse_toLine d.fits_toJson]
  show (Document.ofJson d.toJson).toExcept = _
  rw [ofJson_toJson]
  rfl

/-- **A posting list is read back from its record**, be it absent or empty, its paths as mended. -/
theorem Postings.ofRecord_toRecord (given : Postings) :
    ofRecord given.toRecord = .ok (given.map (List.map RawText.mended)) := by
  rw [ofRecord, readRecord, toRecord, RawText.shown_ofString, toJson, parse_toLine (Value.fits_strings? _)]
  show (ofJson (.strings? _)).toExcept = _
  rw [ofJson, readList_strings?]
  show Except.ok ((given.map (List.map RawText.shown)).map (List.map RawText.ofString)) = _
  simp only [Option.map_map, Function.comp_def, List.map_map]
  rfl

theorem Postings.isText_of_ofJson (v : Value) : ∀ p ∈ (ofJson v).value.getD [], p.IsText := by
  intro p hp
  unfold ofJson at hp
  dsimp only at hp
  cases hlist : (readList .postings .path none v).value with
  | none => simp [hlist] at hp
  | some texts =>
    rw [hlist] at hp
    obtain ⟨s, -, rfl⟩ := List.mem_map.1 hp
    exact RawText.isText_ofString s

/-- What is read as a posting list has nothing but texts in it. -/
theorem Postings.isText_of_ofRecord {record : RawText} {ps : Postings} (h : ofRecord record = .ok ps) :
    ∀ p ∈ ps.getD [], p.IsText := by
  unfold ofRecord readRecord at h
  split at h
  · rename_i v _
    unfold Reading.toExcept at h
    split at h
    · obtain rfl := Except.ok.inj h
      exact isText_of_ofJson v
    · cases h
  · cases h

end ClassAtlas.Index
