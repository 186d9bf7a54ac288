import ClassAtlas.Descriptor

/-! Descriptors and the types read from them. What is read is a prefix of the text: it is the
descriptor of the type that comes out, and the rest is handed on. The other way round, every type
that can be written at all (`IsSpellable`) is read back from its descriptor, whatever follows. So
the texts that are descriptors are known without the reader (`FieldType.parse_eq_ok`,
`MethodType.parse_eq_ok`). -/
namespace ClassAtlas

/-- The descriptor of a method type. -/
def MethodType.descriptor (t : MethodType) : List Char :=
  '(' :: t.parameters.flatMap FieldType.descriptor ++ ')' :: t.result.elim ['V'] FieldType.descriptor

theorem Primitive.letter_of_ofLetter? {c : Char} {p : Primitive} (h : ofLetter? c = some p) : p.letter = c := by
  have hfound := List.find?_some (p := fun q : Primitive => q.letter == c) h
  exact eq_of_beq hfound

/-- A class name in a descriptor is not empty and ends at the first semicolon. -/
def Element.IsSpellable : Element → Prop
  | primitive _ => True
  | object name => name ≠ "" ∧ ';' ∉ name.toList

/-- The type has a descriptor. -/
def FieldType.IsSpellable (t : FieldType) : Prop := t.depth ≤ Descriptor.maxDepth ∧ t.element.IsSpellable

def MethodType.IsSpellable (t : MethodType) : Prop :=
  (∀ p ∈ t.parameters, p.IsSpellable) ∧ ∀ r ∈ t.result, r.IsSpellable

namespace Descriptor

/-! ### What is read -/

theorem element?_sound {cs rest : List Char} {e : Element} (h : element? cs = some (e, rest)) :
    cs = FieldType.descriptor ⟨0, e⟩ ++ rest ∧ e.IsSpellable := by
  cases cs with
  | nil => cases h
  | cons c cs =>
    simp only [element?] at h
    split at h
    · rename_i p hp
      obtain ⟨rfl, rfl⟩ := Prod.mk.inj (Option.some.inj h)
      rw [← Primitive.letter_of_ofLetter? hp]
      exact ⟨rfl, trivial⟩
    · split at h
      · rename_i hletter
        split at h
        · cases h
        · rename_i semicolon rest' hdrop
          split at h
          · cases h
          · rename_i hname
            obtain ⟨rfl, rfl⟩ := Prod.mk.inj (Option.some.inj h)
            have hsplit := List.takeWhile_append_dropWhile (p := (· != ';')) (l := cs)
            have hhead := List.head?_dropWhile_not (· != ';') cs
            obtain rfl : semicolon = ';' := by simpa [hdrop] using hhead
            rw [hdrop] at hsplit
            refine ⟨by simp [FieldType.descriptor, hletter, hsplit], by simpa using hname, fun hmem => ?_⟩
            rw [String.toList_ofList] at hmem
            have hnot := List.all_eq_true.1 List.all_takeWhile _ hmem
            simp at hnot
      · cases h

theorem fieldType?_sound {cs rest : List Char} {t : FieldType} (h : fieldType? cs = some (t, rest)) :
    cs = t.descriptor ++ rest ∧ t.IsSpellable := by
  simp only [fieldType?] at h
  split at h
  · rename_i hdepth
    rw [Option.map_eq_some_iff] at h
    obtain ⟨⟨e, rest'⟩, he, ht⟩ := h
    obtain ⟨rfl, rfl⟩ := Prod.mk.inj ht
    obtain ⟨helement, hspellable⟩ := element?_sound he
    refine ⟨?_, hdepth, hspellable⟩
    have hbrackets : cs.takeWhile (· == '[') = List.replicate (cs.takeWhile (· == '[')).length '[' := by
      refine List.eq_replicate_of_mem fun c hc => ?_
      exact eq_of_beq (List.all_eq_true.1 List.all_takeWhile c hc)
    calc cs = cs.takeWhile (· == '[') ++ cs.dropWhile (· == '[') := List.takeWhile_append_dropWhile.symm
      _ = List.replicate (cs.takeWhile (· == '[')).length '[' ++ (FieldType.descriptor ⟨0, e⟩ ++ rest') := by
        rw [helement, ← hbrackets]
      _ = FieldType.descriptor ⟨(cs.takeWhile (· == '[')).length, e⟩ ++ rest' := by
        simp [FieldType.descriptor]
  · cases h

/-- The parameters come one after the other, up to the parenthesis. -/
theorem parameters?_sound {cs rest : List Char} {ts : List FieldType} (h : parameters? cs = some (ts, rest)) :
    cs = ts.flatMap FieldType.descriptor ++ ')' :: rest ∧ ∀ t ∈ ts, t.IsSpellable := by
  fun_induction parameters? cs generalizing ts with
  | case1 => cases h
  | case2 rest =>
    obtain ⟨rfl, rfl⟩ := Prod.mk.inj (Option.some.inj h)
    exact ⟨rfl, nofun⟩
  | case3 => cases h
  | case4 c cs hc t rest' ht _ ih =>
    rw [Option.map_eq_some_iff] at h
    obtain ⟨⟨ts', rest''⟩, hts, heq⟩ := h
    obtain ⟨rfl, rfl⟩ := Prod.mk.inj heq
    obtain ⟨hfirst, hspellable⟩ := fieldType?_sound ht
    obtain ⟨hothers, hall⟩ := ih hts
    refine ⟨?_, List.forall_mem_cons.2 ⟨hspellable, hall⟩⟩
    rw [hfirst, hothers, List.flatMap_cons, List.append_assoc]

/-! ### Reading a descriptor back -/

theorem element?_descriptor {e : Element} (h : e.IsSpellable) (rest : List Char) :
    element? (FieldType.descriptor ⟨0, e⟩ ++ rest) = some (e, rest) := by
  cases e with
  | primitive p => simp [FieldType.descriptor, element?, Primitive.ofLetter?_letter]
  | object name =>
    obtain ⟨hne, hsemicolon⟩ := h
    have hall : ∀ c ∈ name.toList, (c != ';') = true := by
      intro c hc
      rw [bne_iff_ne]
      rintro rfl
      exact hsemicolon hc
    have htake : (name.toList ++ ';' :: rest).takeWhile (· != ';') = name.toList := by
      rw [List.takeWhile_append_of_pos hall]
      simp
    have hdrop : (name.toList ++ ';' :: rest).dropWhile (· != ';') = ';' :: rest := by
      rw [List.dropWhile_append_of_pos hall]
      simp
    have hletter : Primitive.ofLetter? 'L' = none := rfl
    have hname : name.toList.isEmpty = false := by simpa using hne
    simp [FieldType.descriptor, element?, hletter, htake, hdrop, hname]

/-- An element starts with a letter. -/
theorem element_head (e : Element) (rest : List Char) :
    ∃ c tail, FieldType.descriptor ⟨0, e⟩ ++ rest = c :: tail ∧ c ≠ '[' ∧ c ≠ ')' := by
  cases e with
  | primitive p => exact ⟨p.letter, rest, rfl, by cases p <;> decide⟩
  | object name => exact ⟨'L', name.toList ++ [';'] ++ rest, rfl, by decide⟩

theorem fieldType?_descriptor {t : FieldType} (h : t.IsSpellable) (rest : List Char) :
    fieldType? (t.descriptor ++ rest) = some (t, rest) := by
  obtain ⟨depth, e⟩ := t
  obtain ⟨c, tail, hhead, hc, -⟩ := element_head e rest
  have hsplit : FieldType.descriptor ⟨depth, e⟩ ++ rest = List.replicate depth '[' ++ c :: tail := by
    rw [← hhead]
    simp [FieldType.descriptor]
  have hall : ∀ x ∈ List.replicate depth '[', (x == '[') = true := by
    intro x hx
    rw [List.eq_of_mem_replicate hx]
    rfl
  have htake : (List.replicate depth '[' ++ c :: tail).takeWhile (· == '[') = List.replicate depth '[' := by
    rw [List.takeWhile_append_of_pos hall]
    simp [hc]
  have hdrop : (List.replicate depth '[' ++ c :: tail).dropWhile (· == '[') = c :: tail := by
    rw [List.dropWhile_append_of_pos hall]
    simp [hc]
  have hdepth : depth ≤ maxDepth := h.1
  simp only [fieldType?, hsplit, htake, hdrop, List.length_replicate, hdepth, if_true]
  rw [← hhead, element?_descriptor h.2]
  rfl

theorem fieldType?_eq_some {cs rest : List Char} {t : FieldType} :
    fieldType? cs = some (t, rest) ↔ cs = t.descriptor ++ rest ∧ t.IsSpellable := by
  constructor
  · intro h
    exact fieldType?_sound h
  · rintro ⟨rfl, h⟩
    exact fieldType?_descriptor h rest

/-- No descriptor of a field starts with the parenthesis that closes the parameters. -/
theorem descriptor_ne_close (t : FieldType) (rest : List Char) :
    ∃ c tail, t.descriptor ++ rest = c :: tail ∧ c ≠ ')' := by
  obtain ⟨depth, e⟩ := t
  cases depth with
  | zero =>
    obtain ⟨c, tail, hhead, -, hc⟩ := element_head e rest
    exact ⟨c, tail, hhead, hc⟩
  | succ depth => exact ⟨'[', FieldType.descriptor ⟨depth, e⟩ ++ rest, rfl, by decide⟩

/-- Short of the parenthesis a parameter is read, and then the others. -/
theorem parameters?_cons {c : Char} (hc : c ≠ ')') (cs : List Char) :
    parameters? (c :: cs) = (fieldType? (c :: cs)).bind fun (t, rest) =>
      (parameters? rest).map fun (ts, rest) => (t :: ts, rest) := by
  conv => lhs; unfold parameters?
  split
  · rename_i heq
    cases heq
  · rename_i heq
    exact absurd (List.cons.inj heq).1 hc
  · rename_i heq
    obtain ⟨rfl, rfl⟩ := List.cons.inj heq
    split
    · rename_i hread
      rw [hread]
      rfl
    · rename_i hread
      simp only [hread, Option.bind_some]

/-- Parameters are read one after the other, whatever comes behind them. -/
theorem parameters?_append {ts : List FieldType} (h : ∀ t ∈ ts, t.IsSpellable) (cs : List Char) :
    parameters? (ts.flatMap FieldType.descriptor ++ cs) = (parameters? cs).map fun (us, rest) => (ts ++ us, rest) := by
  induction ts with
  | nil => simp
  | cons t ts ih =>
    have hrest := ih fun t' ht' => h t' (List.mem_cons_of_mem t ht')
    have hread := fieldType?_descriptor (h t List.mem_cons_self) (ts.flatMap FieldType.descriptor ++ cs)
    obtain ⟨c, tail, hhead, hc⟩ := descriptor_ne_close t (ts.flatMap FieldType.descriptor ++ cs)
    rw [List.flatMap_cons, List.append_assoc, hhead, parameters?_cons hc, ← hhead, hread, Option.bind_some]
    dsimp only
    rw [hrest, Option.map_map]
    rfl

theorem parameters?_descriptors {ts : List FieldType} (h : ∀ t ∈ ts, t.IsSpellable) (rest : List Char) :
    parameters? (ts.flatMap FieldType.descriptor ++ ')' :: rest) = some (ts, rest) := by
  rw [parameters?_append h]
  simp [parameters?]

theorem result?_eq_some {cs : List Char} {r : Option FieldType} :
    result? cs = some r ↔ cs = r.elim ['V'] FieldType.descriptor ∧ ∀ t ∈ r, t.IsSpellable := by
  constructor
  · intro h
    unfold result? at h
    split at h
    · obtain rfl := Option.some.inj h
      exact ⟨rfl, nofun⟩
    · split at h
      · rename_i t ht
        obtain rfl := Option.some.inj h
        obtain ⟨htext, hspellable⟩ := fieldType?_sound ht
        rw [List.append_nil] at htext
        refine ⟨htext, fun t' ht' => ?_⟩
        obtain rfl := Option.some.inj ht'
        exact hspellable
      · cases h
  · rintro ⟨rfl, h⟩
    cases r with
    | none => rfl
    | some t =>
      have hread := fieldType?_descriptor (h t rfl) []
      rw [List.append_nil] at hread
      show result? t.descriptor = _
      unfold result?
      split
      · rename_i hvoid
        rw [hvoid] at hread
        cases hread
      · rw [hread]

end Descriptor

theorem FieldType.parse_eq_ok {text : String} {t : FieldType} :
    parse text = .ok t ↔ text.toList = t.descriptor ∧ t.IsSpellable := by
  unfold parse
  constructor
  · intro h
    split at h
    · rename_i ht
      obtain rfl := Except.ok.inj h
      simpa using Descriptor.fieldType?_eq_some.1 ht
    · cases h
  · rintro ⟨htext, h⟩
    have hread := Descriptor.fieldType?_descriptor h []
    rw [List.append_nil] at hread
    rw [htext, hread]

theorem MethodType.parse_eq_ok {text : String} {t : MethodType} :
    parse text = .ok t ↔ text.toList = t.descriptor ∧ t.IsSpellable := by
  constructor
  · intro h
    unfold parse at h
    split at h
    · rename_i ht
      obtain rfl := Except.ok.inj h
      unfold parse? at ht
      split at ht
      · rename_i rest hrest
        split at ht
        · rename_i hts
          rw [Option.map_eq_some_iff] at ht
          obtain ⟨result, hresult, rfl⟩ := ht
          obtain ⟨htext, hparameters⟩ := Descriptor.parameters?_sound hts
          obtain ⟨hend, hresult⟩ := Descriptor.result?_eq_some.1 hresult
          refine ⟨?_, hparameters, hresult⟩
          rw [hrest, htext, hend]
          rfl
        · cases ht
      · cases ht
    · cases h
  · rintro ⟨htext, hparameters, hresult⟩
    have hread : parse? t.descriptor = some t := by
      have hresult := Descriptor.result?_eq_some.2 ⟨rfl, hresult⟩
      simp only [descriptor, List.cons_append, parse?, Descriptor.parameters?_descriptors hparameters, hresult,
        Option.map_some]
    unfold parse
    rw [htext, hread]

theorem FieldType.parse_spells {text : String} {t : FieldType} (h : parse text = .ok t) :
    text.toList = t.descriptor := (parse_eq_ok.1 h).1

theorem MethodType.parse_spells {text : String} {t : MethodType} (h : parse text = .ok t) :
    text.toList = t.descriptor := (parse_eq_ok.1 h).1

end ClassAtlas
