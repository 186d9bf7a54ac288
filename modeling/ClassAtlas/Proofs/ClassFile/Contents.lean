import ClassAtlas.Proofs.ClassFile.Faults
import ClassAtlas.Proofs.ClassFile.Slices

/-! Contents of attributes are decoded exactly.

Whether contents are decoded is a matter of lengths (`BodyKind.exists_decode_iff`): a table must be its
count and the rows counted, and a code body must be its parts with nothing left over, of which only the
tables of local variables are looked into. What is decoded is what the bytes spell, big-endian words
throughout (`BodyKind.decode_iff`).

In a class that was read, an attribute is decoded for its name alone, and to the contents of that name
(`isDecoded_of_decode`). -/
namespace ClassAtlas.ClassFile
open Bytes

/-! ### Lengths -/

/-- A two-byte count and the bytes of that many rows. -/
def CountedRows (width : Nat) (info : Bytes) : Prop :=
  ∃ (count : UInt16) (rows : Bytes), info = of16 count ++ rows ∧ rows.length = count.toNat * width

/-- The bytes of a table are those of its rows. -/
theorem ReadsRows.exists_table_iff {read : Bytes → List α} {G : α → Bytes → Prop} {width : Nat}
    (h : ReadsRows read G width) (info : Bytes) : (∃ rows, Table G rows info) ↔ CountedRows width info := by
  constructor
  · intro hrows
    obtain ⟨rows, count, xs, hinfo, hcount, hs⟩ := hrows
    exact ⟨count, xs, hinfo, by rw [h.length_eq hs, hcount]⟩
  · intro hcounted
    obtain ⟨count, xs, hinfo, hlen⟩ := hcounted
    obtain ⟨rows, hrows, hcount⟩ := h.exists_rows count.toNat xs hlen
    exact ⟨rows, count, xs, hinfo, hcount, hrows⟩

/-- An attribute of a code body: its name and its bytes in their frame. A table of local variables is
its rows. -/
def NestedLayout (pool : Pool) (a : Index × Bytes) (bs : Bytes) : Prop :=
  Framed a.1 a.2 bs ∧ (pool.utf8? a.1 = some "LocalVariableTable" → CountedRows 10 a.2)

/-- The parts of a code body by their lengths. -/
def CodeParts (pool : Pool) (info : Bytes) : Prop :=
  ∃ (maxStack maxLocals : UInt16) (length : UInt32) (code handlers attributes : Bytes) (nested : List (Index × Bytes)),
    info = of16 maxStack ++ of16 maxLocals ++ of32 length ++ code ++ handlers ++ attributes ∧
    code.length = length.toNat ∧ CountedRows 8 handlers ∧ Table (NestedLayout pool) nested attributes

theorem exists_rows_iff (pool : Pool) (name : Index) (info : Bytes) :
    (∃ locals, Rows pool name info locals) ↔ (pool.utf8? name = some "LocalVariableTable" → CountedRows 10 info) := by
  rw [← readLocals_rows.exists_table_iff]
  unfold Rows
  split
  · rename_i hname
    constructor
    · intro h _
      obtain ⟨_, rows, _, hrows⟩ := h
      exact ⟨rows, hrows⟩
    · intro h
      obtain ⟨rows, hrows⟩ := h hname
      exact ⟨some rows, rows, rfl, hrows⟩
  · rename_i hname
    exact ⟨fun _ h => absurd h hname, fun _ => ⟨none, rfl⟩⟩

theorem Sequence.nested {pool : Pool} {as : List CodeAttribute} {bs : Bytes}
    (h : Sequence (CodeAttributeLayout pool) as bs) :
    Sequence (NestedLayout pool) (as.map fun a => (a.name, a.info)) bs := by
  induction h with
  | nil => exact .nil
  | cons ha _ ih => exact .cons ⟨ha.1, (exists_rows_iff pool _ _).1 ⟨_, ha.2⟩⟩ ih

theorem Sequence.decoded {pool : Pool} {nested : List (Index × Bytes)} {bs : Bytes}
    (h : Sequence (NestedLayout pool) nested bs) :
    ∃ as : List CodeAttribute, as.length = nested.length ∧ Sequence (CodeAttributeLayout pool) as bs := by
  induction h with
  | nil => exact ⟨[], rfl, .nil⟩
  | @cons a _ _ _ ha _ ih =>
    obtain ⟨as, hlen, has⟩ := ih
    obtain ⟨locals, hlocals⟩ := (exists_rows_iff pool a.1 a.2).2 ha.2
    exact ⟨⟨a.1, a.2, locals⟩ :: as, congrArg (· + 1) hlen, .cons ⟨ha.1, hlocals⟩ has⟩

/-- Nothing but its lengths makes bytes a code body. -/
theorem exists_code_iff (pool : Pool) (info : Bytes) : (∃ c, CodeLayout pool c info) ↔ CodeParts pool info := by
  constructor
  · intro h
    obtain ⟨c, length, handlers, _, hcode, hinfo, hhandlers, count, attributes, rfl, hcount, hs⟩ := h
    exact ⟨c.maxStack, c.maxLocals, length, c.code, handlers, _, _, hinfo, hcode,
      (readHandlers_rows.exists_table_iff handlers).1 ⟨_, hhandlers⟩, count, attributes, rfl,
      by rw [List.length_map, hcount], hs.nested⟩
  · intro h
    obtain ⟨maxStack, maxLocals, length, code, handlers, _, nested, hinfo, hcode, hhandlers, count, attributes, rfl,
      hcount, hs⟩ := h
    obtain ⟨rows, hrows⟩ := (readHandlers_rows.exists_table_iff handlers).2 hhandlers
    obtain ⟨as, hlen, has⟩ := hs.decoded
    exact ⟨⟨maxStack, maxLocals, code, rows, as⟩, length, handlers, _, hcode, hinfo, hrows, count, attributes, rfl,
      hlen.trans hcount, has⟩

namespace BodyKind

/-- The bytes of contents by their lengths. -/
def Fills (pool : Pool) (info : Bytes) : BodyKind → Prop
  | code => CodeParts pool info
  | sourceFile => info.length = 2
  | exceptions => CountedRows 2 info
  | parameters => ∃ (count : UInt8) (rows : Bytes), info = count :: rows ∧ rows.length = count.toNat * 4

/-- Contents are decoded exactly when their lengths are right. -/
theorem exists_decode_iff (pool : Pool) (info : Bytes) (kind : BodyKind) :
    (∃ body, kind.decode pool info = .ok body) ↔ kind.Fills pool info := by
  have hinto : ∀ {α : Type} {f : α → Body} {P : α → Prop}, (∃ body a, P a ∧ f a = body) ↔ ∃ a, P a :=
    ⟨fun ⟨_, a, ha, _⟩ => ⟨a, ha⟩, fun ⟨a, ha⟩ => ⟨_, a, ha, rfl⟩⟩
  cases kind with
  | code => simp only [decode, map_eq_ok, decodeCode_iff, hinto, exists_code_iff, Fills]
  | sourceFile =>
    simp only [decode, map_eq_ok, mapError_eq_ok, sourceFile_iff, hinto, Fills]
    constructor
    · intro h
      obtain ⟨i, rfl⟩ := h
      rfl
    · intro h
      obtain ⟨a, b, rfl⟩ := eq_pair h
      exact ⟨word16 a b, (of16_word16 a b).symm⟩
  | exceptions =>
    simp only [decode, map_eq_ok, mapError_eq_ok, exceptions_iff, hinto, readIndices_rows.exists_table_iff, Fills]
  | parameters =>
    simp only [decode, map_eq_ok, mapError_eq_ok, parameters_iff, hinto, Fills]
    constructor
    · intro h
      obtain ⟨rows, count, xs, hinfo, hrows⟩ := h
      exact ⟨count, xs, hinfo, ((readParameters_rows.read_iff _ _ _).2 hrows).1⟩
    · intro h
      obtain ⟨count, xs, hinfo, hlen⟩ := h
      exact ⟨_, count, xs, hinfo, (readParameters_rows.read_iff _ _ _).1 ⟨hlen, rfl⟩⟩

end BodyKind

/-! ### Attributes of a class -/

/-- The attributes of a class, its fields and its methods. -/
def ClassModel.allAttributes (c : ClassModel) : List Attribute :=
  c.attributes ++ (c.fields ++ c.methods).flatMap (·.attributes)

/-- An attribute is decoded for its name alone, and so are those of a code body. -/
structure Attribute.IsDecoded (pool : Pool) (a : Attribute) : Prop where
  named : a.body.isSome ↔ ∃ kind : BodyKind, pool.utf8? a.name = some kind.name
  spelled : ∀ body, a.body = some body →
    ∃ kind : BodyKind, pool.utf8? a.name = some kind.name ∧ BodyLayout pool kind.name body a.info
  nested : ∀ c, a.body = some (.code c) → ∀ n ∈ c.attributes,
    (n.locals.isSome ↔ pool.utf8? n.name = some "LocalVariableTable") ∧
      ∀ rows, n.locals = some rows → Table LocalLayout rows n.info

theorem Rows.iff {pool : Pool} {name : Index} {info : Bytes} {locals : Option (List Local)}
    (h : Rows pool name info locals) :
    (locals.isSome ↔ pool.utf8? name = some "LocalVariableTable") ∧
      ∀ rows, locals = some rows → Table LocalLayout rows info := by
  unfold Rows at h
  split at h
  · rename_i hname
    obtain ⟨rows, rfl, hrows⟩ := h
    refine ⟨⟨fun _ => hname, fun _ => rfl⟩, fun rows' heq => ?_⟩
    rwa [← Option.some.inj heq]
  · rename_i hname
    subst h
    exact ⟨⟨nofun, fun h => absurd h hname⟩, nofun⟩

theorem BodyLayout.nested {pool : Pool} {text : String} {c : Code} {info : Bytes}
    (h : BodyLayout pool text (.code c) info) : ∀ n ∈ c.attributes,
      (n.locals.isSome ↔ pool.utf8? n.name = some "LocalVariableTable") ∧
        ∀ rows, n.locals = some rows → Table LocalLayout rows n.info := by
  intro n hn
  cases h with
  | code hc =>
    obtain ⟨_, _, _, -, -, -, hattributes⟩ := hc
    obtain ⟨_, -, hrows⟩ := hattributes.exists_of_mem hn
    exact hrows.iff

theorem AttributeLayout.isDecoded {pool : Pool} {a : Attribute} {bs : Bytes} (h : AttributeLayout pool a bs) :
    a.IsDecoded pool := by
  obtain ⟨-, hcontents⟩ := h
  cases hkind : (pool.utf8? a.name).bind BodyKind.ofName? with
  | none =>
    have hbody : a.body = none := (contents_none hkind).1 hcontents
    refine ⟨⟨?_, ?_⟩, ?_, ?_⟩
    · intro h
      rw [hbody] at h
      cases h
    · intro h
      obtain ⟨kind, hname⟩ := h
      rw [hname, Option.bind_some, BodyKind.ofName?_eq_some.2 rfl] at hkind
      cases hkind
    · intro body h
      rw [hbody] at h
      cases h
    · intro c h
      rw [hbody] at h
      cases h
  | some kind =>
    obtain ⟨text, htext, hof⟩ := Option.bind_eq_some_iff.1 hkind
    obtain rfl := BodyKind.ofName?_eq_some.1 hof
    obtain ⟨b, hbody, hdecode⟩ := (contents_some hkind).1 hcontents
    have hlayout := (BodyKind.decode_iff pool a.info kind b).1 hdecode
    refine ⟨⟨fun _ => ⟨kind, htext⟩, fun _ => by rw [hbody]; rfl⟩, ?_, ?_⟩
    · intro body h
      obtain rfl := Option.some.inj (hbody.symm.trans h)
      exact ⟨kind, htext, hlayout⟩
    · intro c h
      obtain rfl := Option.some.inj (hbody.symm.trans h)
      exact hlayout.nested

theorem isDecoded_of_decode {input : Input} {c : ClassModel} {rest : Bytes} (h : decode input = .ok (c, rest)) :
    ∀ a ∈ c.allAttributes, a.IsDecoded c.pool := by
  obtain ⟨front, -, hlayout⟩ := (decode_iff_layout ..).1 h
  obtain ⟨_, _, _, _, _, _, -, -, -, -, hfields, hmethods, hattributes⟩ := hlayout
  have hmember : ∀ m ∈ c.fields ++ c.methods, ∃ bs, MemberLayout c.pool m bs := by
    intro m hm
    rcases List.mem_append.1 hm with hm | hm
    · exact hfields.exists_of_mem hm
    · exact hmethods.exists_of_mem hm
  intro a ha
  rcases List.mem_append.1 ha with ha | ha
  · obtain ⟨_, ha⟩ := hattributes.exists_of_mem ha
    exact ha.isDecoded
  · obtain ⟨m, hm, ha⟩ := List.mem_flatMap.1 ha
    obtain ⟨_, _, -, htable⟩ := hmember m hm
    obtain ⟨_, ha⟩ := htable.exists_of_mem ha
    exact ha.isDecoded

/-! ### The whole -/

/-- **Contents are decoded exactly.** They are decoded when their lengths are right, to the values that their
bytes spell, and no slice of them is out of range. Where they are not decoded the file is malformed, and a
class that was read has contents for the names that are read and no others. -/
theorem contents_exact :
    (∀ (pool : Pool) (info : Bytes) (kind : BodyKind),
      ((∃ body, kind.decode pool info = .ok body) ↔ kind.Fills pool info) ∧
      (∀ body, kind.decode pool info = .ok body ↔ BodyLayout pool kind.name body info) ∧
      (kind.slice pool info).run = some (kind.decode pool info)) ∧
    (∀ (f : Failure) (front rest : Bytes) (e : Ending), FaultyClass f front →
      decode ⟨front ++ rest, e⟩ = .error f ∧ f.error.kind = .malformedContainer) ∧
    ∀ (input : Input) (c : ClassModel) (rest : Bytes), decode input = .ok (c, rest) →
      ∀ a ∈ c.allAttributes, a.IsDecoded c.pool := by
  refine ⟨fun pool info kind => ?_, fun f front rest e h => ?_, fun input c rest => isDecoded_of_decode⟩
  · exact ⟨kind.exists_decode_iff pool info, kind.decode_iff pool info, kind.slice_eq pool info⟩
  · obtain ⟨kind, fault, hcause⟩ := h.cause
    refine ⟨h.decode_eq rest e, ?_⟩
    rw [f.kind_error, hcause]
    exact Error.kind_saying ..

def codeName : Bytes := [67, 111, 100, 101]

def localsName : Bytes := [76, 111, 99, 97, 108, 86, 97, 114, 105, 97, 98, 108, 101, 84, 97, 98, 108, 101]

/-- The header of a class with these two texts, up to its attributes. -/
def codeHeader : Bytes :=
  [0xCA, 0xFE, 0xBA, 0xBE, 0, 0, 0, 52, 0, 3, 1, 0, 4] ++ codeName ++ [1, 0, 18] ++ localsName ++
    [0, 1, 0, 0, 0, 0, 0, 0, 0, 0, 0, 0]

def codePool : Pool := ⟨#[some (.utf8 "Code"), some (.utf8 "LocalVariableTable")]⟩

/-- A body of one instruction with a table of one local variable. -/
def codeInfo : Bytes :=
  [0, 1, 0, 4, 0, 0, 0, 1, 0xB1, 0, 0, 0, 1, 0, 2, 0, 0, 0, 12, 0, 1, 0, 0, 0, 1, 0, 1, 0, 2, 0, 3]

def codeBody : Code where
  maxStack := 1
  maxLocals := 4
  code := [0xB1]
  handlers := []
  attributes := [⟨2, [0, 1, 0, 0, 0, 1, 0, 1, 0, 2, 0, 3], some [⟨0, 1, 1, 2, 3⟩]⟩]

def codeClass : ClassModel where
  minor := 0
  major := 52
  pool := codePool
  access := 1
  this := 0
  super := 0
  interfaces := []
  fields := []
  methods := []
  attributes := [⟨1, codeInfo, some (.code codeBody)⟩]

/-- The same body, whose table lacks its row. -/
def shortInfo : Bytes := [0, 1, 0, 4, 0, 0, 0, 1, 0xB1, 0, 0, 0, 1, 0, 2, 0, 0, 0, 2, 0, 1]

theorem shortInfo_faulty : FaultyClass ⟨.classAttributes, .body .code (.locals .length)⟩
    (codeHeader ++ [0, 1, 0, 1, 0, 0, 0, 21] ++ shortInfo) := by
  have hcode : Text.ModifiedUtf8.decode codeName = "Code" := by decide
  have hlocals : Text.ModifiedUtf8.decode localsName = "LocalVariableTable" := by decide
  have hslots := SlotsLayout.narrow (.utf8 4 codeName rfl) rfl (.narrow (.utf8 18 localsName rfl) rfl .nil)
  rw [hcode, hlocals] at hslots
  have hempty : ∀ {α : Type} {G : α → Bytes → Prop}, Table G [] (of16 0) := ⟨0, [], rfl, rfl, .nil⟩
  have hfaulty : FaultyAttribute codePool (.body .code (.locals .length)) ([0, 1, 0, 0, 0, 21] ++ shortInfo) :=
    ⟨1, shortInfo, .code, .locals .length, ⟨21, rfl, rfl⟩, by decide, by decide, rfl⟩
  have hattributes : FaultyAttributes codePool (.body .code (.locals .length))
      ([0, 1] ++ ([0, 1, 0, 0, 0, 21] ++ shortInfo)) := ⟨1, [], [], _, rfl, by decide, .nil, hfaulty⟩
  have hclass := FaultyClass.mk 0 52 3 1 0 0 rfl hslots (.inClass hempty hempty hempty hattributes)
  exact hclass

/-- A table of local variables is decoded inside code, and without its row the file is malformed. -/
theorem codeClass_exact :
    decode ⟨codeHeader ++ [0, 1, 0, 1, 0, 0, 0, 31] ++ codeInfo, .finished⟩ = .ok (codeClass, []) ∧
    (∀ a ∈ codeClass.allAttributes, a.IsDecoded codeClass.pool) ∧
    BodyKind.code.Fills codePool codeInfo ∧ ¬ BodyKind.code.Fills codePool shortInfo ∧
    decode ⟨codeHeader ++ [0, 1, 0, 1, 0, 0, 0, 21] ++ shortInfo ++ [1, 2], .finished⟩ =
      .error ⟨.classAttributes, .body .code (.locals .length)⟩ := by
  have hdecode : decode ⟨codeHeader ++ [0, 1, 0, 1, 0, 0, 0, 31] ++ codeInfo, .finished⟩ = .ok (codeClass, []) := by
    decide +kernel
  have hshort : BodyKind.code.decode codePool shortInfo = .error (.locals .length) := by decide
  obtain ⟨hcontents, hrefused, hread⟩ := contents_exact
  refine ⟨hdecode, hread _ _ _ hdecode, ?_, ?_, (hrefused _ _ _ _ shortInfo_faulty).1⟩
  · exact (hcontents codePool codeInfo .code).1.1 ⟨.code codeBody, by decide +kernel⟩
  · intro h
    obtain ⟨body, hbody⟩ := (hcontents codePool shortInfo .code).1.2 h
    rw [hshort] at hbody
    cases hbody

end ClassAtlas.ClassFile
