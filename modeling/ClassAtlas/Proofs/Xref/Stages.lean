import ClassAtlas.Proofs.ClassFile.Truncation
import ClassAtlas.Proofs.Xref.Faults
import ClassAtlas.Xref.Analysis

/-! The kind of a failure names the stage that failed.

An analysis reads the file, renders the class and collects the constants that are left over, and
ends with the error of the first of these stages that fails (`analyzeBytes_eq`). The kind of an
error is read off the sentinels that it wraps, so this is a statement on what each stage wraps:
reading a given byte string either runs out of bytes or refuses them (`kind_of_decode`), so it is
never the input that broke off; rendering blames the class alone, also where it quotes the fault of
a descriptor (`kind_of_render`); and collecting blames a constant (`kind_of_collect`).

An input that breaks off with an error of its own is told from one that ends by the failure alone
(`decode_failing`): the same bytes are read, and where they run out, in the same place. -/
namespace ClassAtlas.Xref
open ClassFile

/-- The kind of a failure. An analysis that succeeds has none. -/
def kindOf {α : Type} : Except Error α → Option Kind
  | .ok _ => none
  | .error e => some e.kind

/-- A failure that does not tell of the end of the input is one of a malformed file. -/
theorem kind_of_not_isEnd {f : Failure} (h : f.cause.isEnd = false) : f.error.kind = .malformedContainer := by
  rw [f.kind_error]
  cases hcause : f.cause with
  | truncated | broken =>
    rw [hcause] at h
    cases h
  | magic | noPool | unknownTag | wideAtEnd | body => exact Error.kind_saying ..

theorem kind_of_truncated (place : Place) (site : Site) :
    (Failure.error ⟨place, .truncated site⟩).kind = .truncatedInput :=
  (Failure.kind_error _).trans (Error.kind_saying ..)

theorem kind_of_decode {bytes : Bytes} {f : Failure} (h : decode ⟨bytes, .finished⟩ = .error f) :
    f.error.kind = .truncatedInput ∨ f.error.kind = .malformedContainer := by
  obtain ⟨c, rest, hread⟩ | ⟨f', hother, hrefuse⟩ | ⟨spot, hstop⟩ := decode_settles bytes
  · have hread' := hread [] .finished
    rw [List.append_nil, h] at hread'
    cases hread'
  · have hrefuse' := hrefuse [] .finished
    rw [List.append_nil, h] at hrefuse'
    obtain rfl := Except.error.inj hrefuse'
    exact .inr (kind_of_not_isEnd hother)
  · rw [hstop] at h
    obtain rfl := Except.error.inj h
    exact .inl (kind_of_truncated ..)

/-- An analysis, stage by stage. -/
theorem analyzeBytes_eq (links : Linker) (bytes : Bytes) :
    analyzeBytes links bytes =
      match decode ⟨bytes, .finished⟩ with
      | .error f => .error f.error
      | .ok (c, _) =>
        match render links c with
        | .error e => .error e
        | .ok r =>
          match ((Resolver.collect c.pool).run r.marks).1 with
          | .error e => .error e
          | .ok literals => .ok ⟨r.text, r.definitions, r.references, literals⟩ := by
  unfold analyzeBytes analyzeInput analyze
  cases decode ⟨bytes, .finished⟩ with
  | error f => rfl
  | ok p =>
    obtain ⟨c, rest⟩ := p
    simp only [Except.mapError, bind, Except.bind]
    cases render links c with
    | error e => rfl
    | ok r =>
      dsimp only
      cases ((Resolver.collect c.pool).run r.marks).1 <;> rfl

/-- **The kind of a failure names the stage that failed**: reading, rendering or collecting. It is
never that of a broken input, and there is none exactly when all three stages succeed. -/
theorem kindOf_analyzeBytes (links : Linker) (bytes : Bytes) :
    ((kindOf (analyzeBytes links bytes) = some .truncatedInput ∨
        kindOf (analyzeBytes links bytes) = some .malformedContainer) ↔
      ∃ f, decode ⟨bytes, .finished⟩ = .error f) ∧
    (kindOf (analyzeBytes links bytes) = some .malformedModel ↔
      ∃ c rest e, decode ⟨bytes, .finished⟩ = .ok (c, rest) ∧ render links c = .error e) ∧
    (kindOf (analyzeBytes links bytes) = some .malformedConstant ↔
      ∃ c rest r e, decode ⟨bytes, .finished⟩ = .ok (c, rest) ∧ render links c = .ok r ∧
        ((Resolver.collect c.pool).run r.marks).1 = .error e) ∧
    kindOf (analyzeBytes links bytes) ≠ some .io ∧
    (kindOf (analyzeBytes links bytes) = none ↔
      ∃ c rest r literals, decode ⟨bytes, .finished⟩ = .ok (c, rest) ∧ render links c = .ok r ∧
        ((Resolver.collect c.pool).run r.marks).1 = .ok literals) := by
  rw [analyzeBytes_eq]
  cases hdecode : decode ⟨bytes, .finished⟩ with
  | error f => rcases kind_of_decode hdecode with hkind | hkind <;> simp [kindOf, hkind]
  | ok p =>
    obtain ⟨c, rest⟩ := p
    cases hrender : render links c with
    | error e => simp [kindOf, kind_of_render hrender, hrender]
    | ok r =>
      cases hcollect : ((Resolver.collect c.pool).run r.marks).1 with
      | error e => simp [kindOf, Resolver.kind_of_collect hcollect, hrender, hcollect]
      | ok literals => simp [kindOf, hrender, hcollect]

/-! ### Inputs that break off -/

/-- An error that does not say that the input ended stays the cause where the bytes run out. -/
theorem cause_failing {error : Error} (h : error.isEnd = false) (site : Site) :
    (Ending.failing error).cause site = .broken site error := by
  rw [Ending.cause, h]
  rfl

/-- **An input that breaks off differs from a short one only in the failure.** Unless the bytes run
out, the class or the failure is the same; where they do, the failure arises in the same place while
the same thing is read, and wraps the error, which its message gives in place of the word that the
file is truncated. So its kind is that of the error, which for an error from outside is that of
input and output. -/
theorem decode_failing (bytes : Bytes) (error : Error) (herror : error.isEnd = false) :
    ((∀ f, decode ⟨bytes, .finished⟩ = .error f → f.error.kind ≠ .truncatedInput) →
      decode ⟨bytes, .failing error⟩ = decode ⟨bytes, .finished⟩) ∧
    ∀ f, decode ⟨bytes, .finished⟩ = .error f → f.error.kind = .truncatedInput →
      ∃ f' site, decode ⟨bytes, .failing error⟩ = .error f' ∧ f'.error.kind = error.kind ∧
        ((∀ s, error.is s = false) → f'.error.kind = .io) ∧ error ∈ f'.error.chain ∧
        f'.place = f.place ∧ f.cause = .truncated site ∧ f'.cause = .broken site error ∧
        f.error.message = f.place.label ++ ("truncated class file: reading " ++ site.name) ∧
        f'.error.message = f.place.label ++ ("read " ++ site.name ++ ": " ++ error.message) := by
  obtain ⟨c, rest, hread⟩ | ⟨refusal, hother, hrefuse⟩ | ⟨⟨place, site⟩, hstop⟩ := decode_settles bytes
  · have hread' : ∀ e, decode ⟨bytes, e⟩ = .ok (c, rest) := by simpa using hread []
    refine ⟨fun _ => by rw [hread', hread'], fun f hf => ?_⟩
    rw [hread'] at hf
    cases hf
  · have hrefuse' : ∀ e, decode ⟨bytes, e⟩ = .error refusal := by simpa using hrefuse []
    refine ⟨fun _ => by rw [hrefuse', hrefuse'], fun f hf hkind => ?_⟩
    rw [hrefuse'] at hf
    obtain rfl := Except.error.inj hf
    exact absurd hkind (by rw [kind_of_not_isEnd hother]; decide)
  · refine ⟨fun h => absurd (kind_of_truncated place site) (h _ (hstop .finished)), fun f hf _ => ?_⟩
    rw [hstop] at hf
    obtain rfl := Except.error.inj hf
    have hkind : (Failure.error ⟨place, .broken site error⟩).kind = error.kind :=
      (Failure.kind_error _).trans (Error.kind_under ..)
    refine ⟨⟨place, .broken site error⟩, site, ?_, hkind, fun hplain => ?_, ?_, rfl, rfl, rfl, ?_, ?_⟩
    · rw [hstop, stopIn, cause_failing herror]
    · rw [hkind]
      simp [Error.kind, hplain]
    · exact Place.mem_chain_mark (Error.mem_chain_under ..)
    · exact Place.message_mark ..
    · refine (Place.message_mark ..).trans ?_
      simp [stopIn, Cause.error, Error.under, Error.message]

/-- A whole file is read before its input breaks off; one that breaks off in a text is not. -/
theorem attributedFile_failing :
    (Error.text "disk error").isEnd = false ∧
    decode ⟨attributedFile, .failing (.text "disk error")⟩ = .ok (attributedClass, []) ∧
    ∃ f, decode ⟨attributedFile.take 12, .failing (.text "disk error")⟩ = .error f ∧ f.error.kind = .io ∧
      f.error.message = "constant pool entry 1: read Utf8 constant: disk error" := by
  have hcut : decode ⟨attributedFile.take 12, .finished⟩ = .error ⟨.poolEntry 1, .truncated (.constant .utf8)⟩ := by
    decide +kernel
  obtain ⟨hwhole, -⟩ := decode_failing attributedFile (.text "disk error") rfl
  obtain ⟨-, hbroken⟩ := decode_failing (attributedFile.take 12) (.text "disk error") rfl
  rw [decode_attributedFile] at hwhole
  obtain ⟨f, site, hf, -, hkind, -, -, hcause, -, -, hmessage⟩ := hbroken _ hcut (kind_of_truncated ..)
  obtain rfl := (Cause.truncated.inj hcause).symm
  exact ⟨rfl, hwhole nofun, f, hf, hkind fun _ => rfl, hmessage⟩

end ClassAtlas.Xref
