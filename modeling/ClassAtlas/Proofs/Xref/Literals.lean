import ClassAtlas.Proofs.Xref.Collection

/-! The literals of a class: numbers and strings, which the rendition never shows. They are left
for the end, when the constants not marked by then are spelled in the order of the pool. Spelling
one constant marks no other literal, so a literal is listed unless the rendition marked it, and
the rendition marks it only in place of a slot of a local variable. -/
namespace ClassAtlas.Xref
open ClassFile

namespace Resolver

variable {pool : Pool} {m : Marks} {i : Index}

/-- A literal leads unless it is marked, for no other constant reaches it. -/
theorem leads_literal (hspelled : ∀ j, Unmarked pool m j → ∃ text, Spelled pool j text) {k : Constant}
    (hk : pool.get? i = some k) (hliteral : k.isLiteral = true) : Leads pool m i ↔ m.has i = false := by
  constructor
  · exact fun hleads => hleads.1.2
  · intro hhas
    have hi : Unmarked pool m i := ⟨Option.isSome_iff_exists.2 ⟨k, hk⟩, hhas⟩
    refine ⟨hi, fun j hj hunmarked hji => ?_⟩
    obtain ⟨text, htext⟩ := hspelled j hunmarked
    obtain rfl := eq_of_reaches_literal htext hji hk hliteral
    exact UInt16.lt_irrefl i hj

/-- Some of the constants are kept, and of the literals those that are not marked at the start. -/
theorem collect_keeps (hm : m.size = pool.count) {out : List String} (h : ((collect pool).run m).1 = .ok out) :
    ∃ kept : List Index, kept.Pairwise (· < ·) ∧ List.Forall₂ (Spelled pool) kept out ∧
      ∀ i k, pool.get? i = some k → k.isLiteral = true → (i ∈ kept ↔ m.has i = false) := by
  obtain ⟨leading, literals, m', hrun, hlisted, hspelled⟩ | ⟨e, m', i, hrun, -⟩ := collect_lists hm
  · rw [hrun] at h
    obtain rfl := Except.ok.inj h
    refine ⟨leading, hlisted.ordered, hlisted.spelled, fun i k hk hliteral => ?_⟩
    rw [hlisted.leads, leads_literal hspelled hk hliteral]
  · rw [hrun] at h
    cases h

theorem spelled_integer {value : Int32} (h : pool.get? i = some (.integer value)) :
    Spelled pool i (toString value.toInt) := by
  intro m
  rw [resolve_eq h, constant]
  rfl

end Resolver

/-! ### Analyses -/

/-- The listed texts are those of some constants, in the order of the pool; of the literals only
the ones whose index is the slot number of a local variable are left out. -/
structure Listing (c : ClassModel) (kept : List Index) (literals : List String) : Prop where
  ordered : kept.Pairwise (· < ·)
  spelled : List.Forall₂ (Spelled c.pool) kept literals
  literal : ∀ i k, c.pool.get? i = some k → k.isLiteral = true → (i ∈ kept ↔ i ∉ c.localSlots)

theorem analyze_listing {links : Linker} {c : ClassModel} {a : Analysis} (h : analyze links c = .ok a) :
    ∃ kept, Listing c kept a.literals := by
  unfold analyze at h
  simp only [bind_eq_ok, pure_eq_ok] at h
  obtain ⟨r, hr, literals, hliterals, rfl⟩ := h
  obtain ⟨kept, hordered, hspelled, hkept⟩ := Resolver.collect_keeps (size_render hr) hliterals
  refine ⟨kept, hordered, hspelled, fun i k hk hliteral => ?_⟩
  rw [hkept i k hk hliteral, ← has_render_iff hr hk hliteral, Bool.not_eq_true]

/-- **Every literal is listed unless its index is the slot number of a local variable**, and then
it is not. -/
theorem analyzeBytes_listing {links : Linker} {bytes : Bytes} {a : Analysis}
    (h : analyzeBytes links bytes = .ok a) :
    ∃ c rest kept, decode ⟨bytes, .finished⟩ = .ok (c, rest) ∧ Listing c kept a.literals ∧
      ∀ i k, c.pool.get? i = some k → k.isLiteral = true → i ∉ c.localSlots →
        ∃ text, Spelled c.pool i text ∧ text ∈ a.literals := by
  obtain ⟨⟨c, rest⟩, hdecode, hanalyze⟩ := bind_eq_ok.1 h
  rw [mapError_eq_ok] at hdecode
  obtain ⟨kept, hlisting⟩ := analyze_listing hanalyze
  refine ⟨c, rest, kept, hdecode, hlisting, fun i k hk hliteral hslot => ?_⟩
  have hmem := (hlisting.literal i k hk hliteral).2 hslot
  obtain ⟨text, htext, hspelled⟩ := exists_of_mem_left hlisting.spelled hmem
  exact ⟨text, hspelled, htext⟩

/-- A class with the numbers 99 and 7 at the indices 3 and 10, and a method with a local variable
in slot 3. -/
def slottedFile : Bytes :=
  [0xCA, 0xFE, 0xBA, 0xBE, 0, 0, 0, 52, 0, 11,
   1, 0, 1, 65, 7, 0, 1, 3, 0, 0, 0, 99, 1, 0, 1, 109, 1, 0, 3, 40, 41, 86, 1, 0, 4, 67, 111, 100, 101,
   1, 0, 18, 76, 111, 99, 97, 108, 86, 97, 114, 105, 97, 98, 108, 101, 84, 97, 98, 108, 101,
   1, 0, 1, 120, 1, 0, 1, 73, 3, 0, 0, 0, 7,
   0, 0, 0, 2, 0, 0, 0, 0, 0, 0, 0, 1, 0, 0, 0, 4, 0, 5, 0, 1, 0, 6, 0, 0, 0, 31,
   0, 1, 0, 4, 0, 0, 0, 1, 177, 0, 0, 0, 1, 0, 7, 0, 0, 0, 12, 0, 1, 0, 0, 0, 1, 0, 8, 0, 9, 0, 3, 0, 0]

def slottedAnalysis : Analysis where
  text := "<a href=\"/s?path=&lt;Unknown&gt;\">&lt;Unknown&gt;</a>\n" ++
    "<a class=\"d\" name=\"A\" href=\"/s?defs=A\">A</a> \x7b\n" ++
    "\tvoid <a class=\"d\" name=\"m\" href=\"/s?defs=m\">m</a>()\n" ++
    "\t\tint <a class=\"d\" name=\"x\" href=\"/s?defs=x\">x</a>\n\x7d\n"
  definitions := ["<Unknown>", "A", "m", "x"]
  references := ["<Unknown>", "A", "m", "x"]
  literals := ["Code", "LocalVariableTable", "7"]

theorem analyzeBytes_slottedFile : analyzeBytes ⟨"/s?"⟩ slottedFile = .ok slottedAnalysis := by
  decide +kernel

theorem slottedFile_listing :
    analyzeBytes ⟨"/s?"⟩ slottedFile = .ok slottedAnalysis ∧
    ∃ c rest kept, decode ⟨slottedFile, .finished⟩ = .ok (c, rest) ∧
      Listing c kept ["Code", "LocalVariableTable", "7"] ∧
      ∀ i k, c.pool.get? i = some k → k.isLiteral = true → i ∉ c.localSlots →
        ∃ text, Spelled c.pool i text ∧ text ∈ ["Code", "LocalVariableTable", "7"] :=
  ⟨analyzeBytes_slottedFile, analyzeBytes_listing analyzeBytes_slottedFile⟩

/-- The number at index 3 has a text and is not listed. -/
theorem slotted_literal_unlisted :
    analyzeBytes ⟨"/s?"⟩ slottedFile = .ok slottedAnalysis ∧
    ∃ c rest, decode ⟨slottedFile, .finished⟩ = .ok (c, rest) ∧ c.pool.get? 3 = some (.integer 99) ∧
      Spelled c.pool 3 "99" ∧ "99" ∉ slottedAnalysis.literals := by
  refine ⟨analyzeBytes_slottedFile, ?_⟩
  have hget : (decode ⟨slottedFile, .finished⟩).toOption.map (fun p => p.1.pool.get? 3) =
      some (some (.integer 99)) := by decide +kernel
  cases hdecode : decode ⟨slottedFile, .finished⟩ with
  | error failure =>
    rw [hdecode] at hget
    cases hget
  | ok p =>
    rw [hdecode] at hget
    have hnumber := Option.some.inj hget
    exact ⟨p.1, p.2, rfl, hnumber, Resolver.spelled_integer hnumber, by decide⟩

end ClassAtlas.Xref
