import ClassAtlas.Proofs.Json.Layout
import ClassAtlas.Report

/-! Reports in JSON are read back.

A result is read from the members of an object by their names (`Result.ofJson?`), and every result
is read back from its JSON, with its absent lists (`ofJson?_toJson`). A report has none of those,
for they are written as empty ones. So reading the reports of several results, one behind the
other, gives the results with each absent list filled in; and what is written has none of the characters
that are not safe inside markup, nor a control character but the line breaks of its layout, whose
number depends on no string (`readAll_writeAll`). -/
namespace ClassAtlas.Report
open Json

/-! ### Reading -/

/-- The value of a member of an object. -/
def member? (name : String) : Value → Option Value
  | .object ms => ms.lookup name
  | _ => none

def text? : Value → Option String
  | .string s => some s
  | _ => none

/-- A list of strings, which `null` makes absent. -/
def list? : Value → Option (Option (List String))
  | .null => some none
  | .array vs => (vs.mapM text?).map some
  | _ => none

def Result.ofJson? (v : Value) : Option Result := do
  let text ← (member? "text" v).bind text?
  let definitions ← (member? "definitions" v).bind list?
  let references ← (member? "references" v).bind list?
  let literals ← (member? "literals" v).bind list?
  return ⟨text, definitions, references, literals⟩

/-- The results of a text that holds any number of them, one behind the other. -/
def readAll (text : String) : Option (List Result) := do
  let vs ← (parseAll text).toOption
  vs.mapM Result.ofJson?

theorem text?_string (s : String) : text? (.string s) = some s := rfl

/-- Reading each element of a list undoes writing each. -/
theorem mapM_map_eq_some {α β : Type} {write : α → β} {read : β → Option α} (h : ∀ a, read (write a) = some a)
    (as : List α) : (as.map write).mapM read = some as := by
  have hread : read ∘ write = fun a => some a := funext h
  rw [List.mapM_map, hread]
  exact (List.mapM_pure).trans (congrArg some as.map_id)

theorem list?_strings? (given : Option (List String)) : list? (.strings? given) = some given := by
  cases given with
  | none => rfl
  | some xs =>
    rw [Value.strings?, Value.strings, list?, mapM_map_eq_some text?_string]
    rfl

theorem Result.ofJson?_toJson (r : Result) : ofJson? r.toJson = some r := by
  simp [ofJson?, toJson, member?, List.lookup_cons, text?, list?_strings?]

/-! ### Writing -/

theorem Result.fits_toJson (r : Result) : r.toJson.Fits maxDepth := by
  refine .object fun m hm => ?_
  simp only [List.mem_cons, List.not_mem_nil, or_false] at hm
  obtain rfl | rfl | rfl | rfl := hm
  · exact .string _
  · exact Value.fits_strings? _
  · exact Value.fits_strings? _
  · exact Value.fits_strings? _

/-- The reports are the indented forms of the results, each on lines of its own. -/
theorem writeAll_json (rs : List Result) :
    writeAll .json rs =
      String.ofList ((rs.map fun r => r.filled.toJson).flatMap fun v => v.indented 0 ++ ['\n']) := by
  apply String.toList_inj.1
  simp [writeAll, write, Value.toLines, List.flatMap_map]

/-- The lines that a list takes up behind the one it starts on. -/
def listLines (given : Option (List String)) : Nat :=
  match given.getD [] with
  | [] => 0
  | xs => xs.length + 1

/-- The lines of a report: one for each bracket and each member, and those of the lists. -/
def Result.lines (r : Result) : Nat :=
  6 + listLines r.definitions + listLines r.references + listLines r.literals

theorem breaks_list (level : Nat) (given : Option (List String)) :
    breaks ((Value.strings? (some (given.getD []))).indented level) = listLines given := by
  rw [Value.strings?, Value.strings, Value.indented, indentedAll_eq, breaks_block (by decide) (by decide)]
  cases hxs : given.getD [] with
  | nil => simp [listLines, hxs]
  | cons x xs => simp [listLines, hxs, Function.comp_def, Value.indented, Nat.add_comm]

theorem Result.breaks_report (r : Result) : breaks (r.filled.toJson.indented 0 ++ ['\n']) = r.lines := by
  have hend : breaks ['\n'] = 1 := rfl
  rw [toJson, Value.indented, indentedMembers_eq, breaks_append, breaks_block (by decide) (by decide)]
  simp [memberText, filled, breaks_list, Value.indented, hend, lines]
  omega

/-! ### Reports -/

section Reports
variable (rs : List Result)

theorem fits_reports : ∀ v ∈ rs.map fun r => r.filled.toJson, v.Fits maxDepth := by
  intro v hv
  obtain ⟨r, -, rfl⟩ := List.mem_map.1 hv
  exact r.filled.fits_toJson

theorem parseAll_writeAll : parseAll (writeAll .json rs) = .ok (rs.map fun r => r.filled.toJson) := by
  have hgap : ∀ c ∈ ['\n'], isBlank c := List.forall_mem_singleton.2 rfl
  rw [writeAll_json]
  exact parseAll_written hgap fun v hv => (fits_reports rs v hv).readsAs_indented 0

theorem isCoded_writeAll : ∀ c ∈ (writeAll .json rs).toList, isCoded c → c = '\n' := by
  intro c hc hcoded
  rw [writeAll_json, String.toList_ofList, List.mem_flatMap] at hc
  obtain ⟨v, hv, hc⟩ := hc
  obtain hc | hc := List.mem_append.1 hc
  · exact (fits_reports rs v hv).isCoded_indented 0 c hc hcoded
  · exact List.mem_singleton.1 hc

theorem breaks_writeAll : breaks (writeAll .json rs).toList = (rs.map Result.lines).sum := by
  induction rs with
  | nil => rfl
  | cons r rs ih =>
    rw [writeAll_json, String.toList_ofList] at ih ⊢
    rw [List.map_cons, List.flatMap_cons, breaks_append, ih, r.breaks_report, List.map_cons, List.sum_cons]

end Reports

/-- **Reports in JSON are the results they are written from**, each absent list read as an empty
one. They stand inside markup unharmed, without an angle bracket, an ampersand or a line separator.
They have no control character but line breaks, and all of these are the layout's. -/
theorem readAll_writeAll (rs : List Result) :
    readAll (writeAll .json rs) = some (rs.map Result.filled) ∧
      (∀ c ∈ (writeAll .json rs).toList, c ∉ ['<', '>', '&', '\u2028', '\u2029'] ∧
        (c.toNat < 0x20 → c = '\n')) ∧
      (writeAll .json rs).toList.count '\n' = (rs.map Result.lines).sum := by
  refine ⟨?_, fun c hc => ⟨fun hmem => ?_, fun hlt => ?_⟩, breaks_writeAll rs⟩
  · have hdecode := mapM_map_eq_some Result.ofJson?_toJson (rs.map Result.filled)
    rw [List.map_map] at hdecode
    rw [readAll, parseAll_writeAll]
    exact hdecode
  · have hall : ['<', '>', '&', '\u2028', '\u2029'].all fun d => isCoded d && d != '\n' := by decide
    have hc' := List.all_eq_true.1 hall c hmem
    rw [Bool.and_eq_true, bne_iff_ne] at hc'
    exact hc'.2 (isCoded_writeAll rs c hc hc'.1)
  · exact isCoded_writeAll rs c hc (by simp [isCoded, hlt])

end ClassAtlas.Report
