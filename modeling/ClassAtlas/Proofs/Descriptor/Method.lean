import ClassAtlas.Proofs.Descriptor.Field
import ClassAtlas.Proofs.Success
import ClassAtlas.Spelling

/-! The language of method descriptors.

The descriptors of the parameters stand one behind the other with nothing between them, and names in
them may hold parentheses. Still a method descriptor is cut into its parts in one way only
(`Splits.unique`): what a parameter starts with says where it ends. The reader finds this cut, or there
is none (`exists_parse_iff`), and each part is spelled as it is by itself (`parse_splits`).

The loop over the parameters goes on until it meets a parenthesis, the end of the text or something
that is no field type. Each of its turns takes at least one character, so it ends within one turn more
than there are characters (`loop?_eq`). -/
namespace ClassAtlas
open Text

namespace Descriptor

/-- A method descriptor cut into the descriptors of its parameters and that of its result. -/
structure Splits (text : String) (parameters : List String) (result : String) : Prop where
  text_eq : text = "(" ++ String.join parameters ++ ")" ++ result
  parameters : ∀ d ∈ parameters, IsField d.toList
  result : result = "V" ∨ IsField result.toList

/-- The text of a field type's descriptor. -/
def textOf (t : FieldType) : String := String.ofList t.descriptor

/-- The text of a result type's descriptor. -/
def resultText (r : Option FieldType) : String := String.ofList (r.elim ['V'] FieldType.descriptor)

theorem exists_textOf {d : String} (h : IsField d.toList) : ∃ t : FieldType, t.IsSpellable ∧ d = textOf t := by
  obtain ⟨t, ht, hd⟩ := isField_iff.1 h
  exact ⟨t, ht, by rw [textOf, ← hd, String.ofList_toList]⟩

theorem exists_map_textOf {ds : List String} (h : ∀ d ∈ ds, IsField d.toList) :
    ∃ ts : List FieldType, (∀ t ∈ ts, t.IsSpellable) ∧ ds = ts.map textOf := by
  induction ds with
  | nil => exact ⟨[], nofun, rfl⟩
  | cons d ds ih =>
    obtain ⟨t, ht, rfl⟩ := exists_textOf (h d List.mem_cons_self)
    obtain ⟨ts, hts, rfl⟩ := ih fun d' hd' => h d' (List.mem_cons_of_mem _ hd')
    exact ⟨t :: ts, List.forall_mem_cons.2 ⟨ht, hts⟩, rfl⟩

theorem flatMap_textOf (ts : List FieldType) :
    (ts.map textOf).flatMap String.toList = ts.flatMap FieldType.descriptor := by
  simp [List.flatMap_map, textOf]

theorem toList_splitText (ts : List FieldType) (r : Option FieldType) :
    ("(" ++ String.join (ts.map textOf) ++ ")" ++ resultText r).toList = MethodType.descriptor ⟨ts, r⟩ := by
  simp [flatMap_textOf, resultText, MethodType.descriptor]

/-- A text is cut into parts exactly as it is the descriptor of the type with these parts. -/
theorem splits_iff {text : String} {ds : List String} {r : String} :
    Splits text ds r ↔ ∃ t : MethodType, MethodType.parse text = .ok t ∧ ds = t.parameters.map textOf ∧
      r = resultText t.result := by
  constructor
  · intro h
    obtain ⟨ts, hts, rfl⟩ := exists_map_textOf h.parameters
    have hresult : ∃ result : Option FieldType, (∀ t ∈ result, t.IsSpellable) ∧ r = resultText result := by
      rcases h.result with rfl | hr
      · exact ⟨none, nofun, rfl⟩
      · obtain ⟨t, ht, rfl⟩ := exists_textOf hr
        exact ⟨some t, by simpa using ht, rfl⟩
    obtain ⟨result, hspell, rfl⟩ := hresult
    refine ⟨⟨ts, result⟩, MethodType.parse_eq_ok.2 ⟨?_, hts, hspell⟩, rfl, rfl⟩
    rw [h.text_eq, toList_splitText]
  · intro h
    obtain ⟨⟨ts, result⟩, hparse, rfl, rfl⟩ := h
    obtain ⟨htext, hts, hspell⟩ := MethodType.parse_eq_ok.1 hparse
    refine ⟨?_, ?_, ?_⟩
    · rw [← String.toList_inj, htext, toList_splitText]
    · intro d hd
      obtain ⟨t, ht, rfl⟩ := List.mem_map.1 hd
      exact isField_iff.2 ⟨t, hts t ht, String.toList_ofList⟩
    · cases result with
      | none => exact .inl rfl
      | some t => exact .inr (isField_iff.2 ⟨t, hspell t rfl, String.toList_ofList⟩)

/-- There is no more than one cut. -/
theorem Splits.unique {text : String} {ds ds' : List String} {r r' : String} (h : Splits text ds r)
    (h' : Splits text ds' r') : ds' = ds ∧ r' = r := by
  obtain ⟨t, ht, rfl, rfl⟩ := splits_iff.1 h
  obtain ⟨t', ht', rfl, rfl⟩ := splits_iff.1 h'
  rw [ht] at ht'
  obtain rfl := Except.ok.inj ht'
  exact ⟨rfl, rfl⟩

/-! ### Nothing is no parameter -/

/-- No field type starts with the letter for nothing. -/
theorem fieldType?_void (cs : List Char) : fieldType? ('V' :: cs) = none := by
  have helement : element? ('V' :: cs) = none := rfl
  simp [fieldType?, helement]

theorem parameters?_void (cs : List Char) : parameters? ('V' :: cs) = none := by
  rw [parameters?_cons (by decide), fieldType?_void]
  rfl

/-- Behind parameters there is no `V` in the place of a further one. -/
theorem parse_void_parameter {ds : List String} (h : ∀ d ∈ ds, IsField d.toList) (rest : String) :
    MethodType.parse ("(" ++ String.join ds ++ "V" ++ rest) =
      .error (.method ("(" ++ String.join ds ++ "V" ++ rest)) := by
  obtain ⟨ts, hts, rfl⟩ := exists_map_textOf h
  have htext : ("(" ++ String.join (ts.map textOf) ++ "V" ++ rest).toList =
      '(' :: (ts.flatMap FieldType.descriptor ++ 'V' :: rest.toList) := by
    simp [flatMap_textOf]
  have hread : MethodType.parse? ("(" ++ String.join (ts.map textOf) ++ "V" ++ rest).toList = none := by
    rw [htext, MethodType.parse?, parameters?_append hts, parameters?_void]
    rfl
  rw [MethodType.parse, hread]

/-! ### The loop over the parameters -/

/-- The loop over the parameters, stopped after a number of turns if it has not ended by then. It adds to the
types that it has read; an inner `none` says that it ended without the parenthesis. -/
def loop? : (turns : Nat) → (types : List FieldType) → List Char → Option (Option (List FieldType × List Char))
  | 0, _, _ => none
  | _ + 1, _, [] => some none
  | turns + 1, types, c :: cs =>
    if c = ')' then some (some (types, cs))
    else
      match fieldType? (c :: cs) with
      | none => some none
      | some (t, rest) => loop? turns (types ++ [t]) rest

/-- The loop ends by itself, with the parameters and what follows them. -/
theorem loop?_eq {turns : Nat} (types : List FieldType) {cs : List Char} (h : cs.length < turns) :
    loop? turns types cs = some ((parameters? cs).map fun (ts, rest) => (types ++ ts, rest)) := by
  induction turns generalizing types cs with
  | zero => exact absurd h (Nat.not_lt_zero _)
  | succ turns ih =>
    cases cs with
    | nil => simp [loop?, parameters?]
    | cons c cs =>
      by_cases hc : c = ')'
      · subst hc
        simp [loop?, parameters?]
      · rw [parameters?_cons hc, loop?, if_neg hc]
        cases hread : fieldType? (c :: cs) with
        | none => rfl
        | some p =>
          obtain ⟨t, rest⟩ := p
          -- The turn has taken a character, so the turns left suffice for the rest.
          have hshorter := fieldType?_length hread
          rw [List.length_cons] at h hshorter
          dsimp only
          rw [ih _ (by omega), Option.bind_some, Option.map_map]
          simp [Function.comp_def]

end Descriptor

/-! ### Characters and bytes -/

/-- The type with the names in it taken byte by byte. -/
def MethodType.bytewise (t : MethodType) : MethodType :=
  ⟨t.parameters.map FieldType.bytewise, t.result.map FieldType.bytewise⟩

namespace Descriptor

theorem parameters?_bytewise (cs : List Char) :
    parameters? (Text.bytewise cs) =
      (parameters? cs).map fun (ts, rest) => (ts.map FieldType.bytewise, Text.bytewise rest) := by
  induction hn : cs.length using Nat.strongRecOn generalizing cs with
  | ind n ih =>
  subst hn
  cases cs with
  | nil => simp [parameters?]
  | cons c cs =>
    by_cases hc : c = ')'
    · subst hc
      rw [bytewise_cons_ascii (by decide)]
      simp [parameters?]
    · obtain ⟨d, ds, hds, hd⟩ := bytewise_head (by decide) hc cs
      rw [hds, parameters?_cons hd, ← hds, parameters?_cons hc, fieldType?_bytewise]
      cases hread : fieldType? (c :: cs) with
      | none => rfl
      | some p =>
        obtain ⟨t, rest⟩ := p
        rw [Option.map_some, Option.bind_some, Option.bind_some]
        dsimp only
        rw [ih _ (fieldType?_length hread) rest rfl, Option.map_map, Option.map_map]
        rfl

theorem result?_eq_whole {cs : List Char} (h : cs ≠ ['V']) : result? cs = (whole? cs).map some := by
  unfold result? whole?
  split
  · exact absurd rfl h
  · cases fieldType? cs with
    | none => rfl
    | some p =>
      obtain ⟨t, rest⟩ := p
      cases rest <;> rfl

theorem result?_bytewise (cs : List Char) :
    result? (Text.bytewise cs) = (result? cs).map fun r => r.map FieldType.bytewise := by
  by_cases h : cs = ['V']
  · subst h
    rfl
  · have hbytes : Text.bytewise cs ≠ ['V'] := fun hb => h (bytewise_eq_singleton (by decide) hb)
    rw [result?_eq_whole h, result?_eq_whole hbytes, whole?_bytewise, Option.map_map, Option.map_map]
    rfl

end Descriptor

namespace MethodType

theorem parse?_of_ne {c : Char} (hc : c ≠ '(') (cs : List Char) : parse? (c :: cs) = none := by
  unfold parse?
  split
  · rename_i heq
    exact absurd (List.cons.inj heq).1 hc
  · rfl

theorem parse?_bytewise (cs : List Char) : parse? (Text.bytewise cs) = (parse? cs).map bytewise := by
  cases cs with
  | nil => rfl
  | cons c cs =>
    by_cases hc : c = '('
    · subst hc
      rw [bytewise_cons_ascii (by decide)]
      simp only [parse?, Descriptor.parameters?_bytewise]
      cases Descriptor.parameters? cs with
      | none => rfl
      | some p =>
        obtain ⟨ts, rest⟩ := p
        dsimp only [Option.map_some]
        rw [Descriptor.result?_bytewise, Option.map_map, Option.map_map]
        rfl
    · obtain ⟨d, ds, hds, hd⟩ := bytewise_head (by decide) hc cs
      rw [hds, parse?_of_ne hd, parse?_of_ne hc]
      rfl

theorem toOption_parse (text : String) : (parse text).toOption = parse? text.toList := by
  unfold parse
  cases parse? text.toList <;> rfl

theorem parse_bytewise (text : String) :
    (parse (String.ofList (Text.bytewise text.toList))).toOption = (parse text).toOption.map bytewise := by
  rw [toOption_parse, toOption_parse, String.toList_ofList, parse?_bytewise]

/-! ### Exactness -/

theorem exists_parse_iff {text : String} :
    (∃ t, parse text = .ok t) ↔ ∃ ds r, Descriptor.Splits text ds r := by
  constructor
  · intro h
    obtain ⟨t, ht⟩ := h
    exact ⟨_, _, Descriptor.splits_iff.2 ⟨t, ht, rfl, rfl⟩⟩
  · intro h
    obtain ⟨ds, r, hsplit⟩ := h
    obtain ⟨t, ht, -, -⟩ := Descriptor.splits_iff.1 hsplit
    exact ⟨t, ht⟩

end MethodType

namespace Spelling

/-- The descriptor of a type is spelled as the type. -/
theorem type_textOf (short : Bool) {t : FieldType} (h : t.IsSpellable) :
    type short (Descriptor.textOf t) = .ok (fieldType short t) := by
  have hread : FieldType.parse (Descriptor.textOf t) = .ok t := FieldType.parse_descriptor h
  have hvoid : Descriptor.textOf t ≠ "V" := by
    intro hv
    rw [hv] at hread
    cases hread
  rw [type, if_neg hvoid, hread]
  rfl

theorem type_resultText (short : Bool) {r : Option FieldType} (h : ∀ t ∈ r, t.IsSpellable) :
    type short (Descriptor.resultText r) = .ok (r.elim "void" (fieldType short)) := by
  cases r with
  | none => rfl
  | some t => exact type_textOf short (h t rfl)

theorem signature_eq (short : Bool) {text : String} {t : MethodType} (h : MethodType.parse text = .ok t) :
    signature short text = .ok (t.result.elim "void" (fieldType short), t.parameters.map (fieldType short)) := by
  obtain ⟨parameters, result⟩ := t
  unfold signature
  rw [h]
  cases result <;> rfl

end Spelling

namespace MethodType
open Descriptor

/-- **Method descriptors are read exactly, and part by part.** The texts that are cut into parameters and a
result are read and no others; there is one cut, and the text is spelled as its parts are. `V` is no
parameter, wherever it stands among them. The loop over the parameters ends, within one turn more than there
are characters. All this goes for a text taken byte by byte as well. -/
theorem parse_splits :
    (∀ text, (∃ t, parse text = .ok t) ↔ ∃ ds r, Splits text ds r) ∧
    (∀ text ds r, Splits text ds r →
      (∀ ds' r', Splits text ds' r' → ds' = ds ∧ r' = r) ∧
      ∀ short, ∃ result parameters, Spelling.signature short text = .ok (result, parameters) ∧
        Spelling.type short r = .ok result ∧ ds.mapM (Spelling.type short) = .ok parameters) ∧
    (∀ (ds : List String) (rest : String), (∀ d ∈ ds, IsField d.toList) →
      ∀ t, parse ("(" ++ String.join ds ++ "V" ++ rest) ≠ .ok t) ∧
    (∀ turns cs, cs.length < turns → loop? turns [] cs = some (parameters? cs)) ∧
    ∀ text, (parse (String.ofList (Text.bytewise text.toList))).toOption = (parse text).toOption.map bytewise := by
  refine ⟨fun _ => exists_parse_iff, ?_, ?_, ?_, parse_bytewise⟩
  · intro text ds r hsplit
    refine ⟨fun _ _ hsplit' => hsplit.unique hsplit', fun short => ?_⟩
    obtain ⟨t, ht, rfl, rfl⟩ := splits_iff.1 hsplit
    obtain ⟨-, hparameters, hresult⟩ := parse_eq_ok.1 ht
    refine ⟨_, _, Spelling.signature_eq short ht, Spelling.type_resultText short hresult, mapM_eq_ok.2 ?_⟩
    rw [List.forall₂_map_left_iff, List.forall₂_map_right_iff, List.forall₂_same]
    exact fun p hp => Spelling.type_textOf short (hparameters p hp)
  · intro ds rest h t ht
    rw [parse_void_parameter h] at ht
    cases ht
  · intro turns cs h
    rw [loop?_eq [] h]
    simp

/-- A parenthesis in the name of a class ends no parameters. -/
theorem closingName_splits :
    Splits "(La);[I)V" ["La);", "[I"] "V" ∧
    (∀ ds r, Splits "(La);[I)V" ds r → ds = ["La);", "[I"] ∧ r = "V") ∧
    Spelling.signature true "(La);[I)V" = .ok ("void", ["a)", "int[]"]) ∧
    (∀ t, parse "(IVI)V" ≠ .ok t) ∧
    loop? 9 [] "La);[I)V".toList = some (parameters? "La);[I)V".toList) := by
  have hfields : ∀ d ∈ ["La);", "[I"], IsField d.toList := by
    have hname : ∃ t, FieldType.parse "La);" = .ok t := ⟨_, rfl⟩
    have harray : ∃ t, FieldType.parse "[I" = .ok t := ⟨_, rfl⟩
    simpa using ⟨FieldType.exists_parse_iff.1 hname, FieldType.exists_parse_iff.1 harray⟩
  have hsplit : Splits "(La);[I)V" ["La);", "[I"] "V" := ⟨by decide, hfields, .inl rfl⟩
  obtain ⟨-, hparts, hvoid, hloop, -⟩ := parse_splits
  obtain ⟨hunique, hspell⟩ := hparts _ _ _ hsplit
  obtain ⟨result, parameters, hsignature, hresult, hparameters⟩ := hspell true
  obtain rfl := Except.ok.inj hresult
  obtain rfl := Except.ok.inj hparameters
  have hint : ∀ d ∈ ["I"], IsField d.toList := by
    have hread : ∃ t, FieldType.parse "I" = .ok t := ⟨_, rfl⟩
    simpa using FieldType.exists_parse_iff.1 hread
  exact ⟨hsplit, hunique, hsignature, hvoid ["I"] "I)V" hint, hloop 9 _ (by decide)⟩

end MethodType
end ClassAtlas
