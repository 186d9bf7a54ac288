import ClassAtlas.Proofs.ClassFile.Decoding
import ClassAtlas.Proofs.ClassFile.Drafting

/-! Reading a class file undoes building it.

`decode_runAll`: take any list of edits whose texts and lists the file format can hold, and let
the pool stay within 65535 slots. The file of the draft is then read, with nothing left over, as
a class that realizes the outline the edits ask for; every index that an edit answered leads to
the constant it asked for, and no text has two slots. What carries the proof is that one edit
keeps a draft sound and takes what it carries from one outline to the next (`Edit.run_effect`);
a sound draft that carries an outline then spells a class that realizes it
(`Draft.encode_layout`). -/
namespace ClassAtlas.ClassFile
open Bytes

/-! ### Tables and sequences -/

theorem sequence_flatMap {α β : Type} {G : α → Bytes → Prop} {enc : β → Bytes} {bs : List β} {as : List α}
    (h : List.Forall₂ (fun b a => G a (enc b)) bs as) : Sequence G as (bs.flatMap enc) := by
  induction h with
  | nil => exact .nil
  | cons hab _ ih => exact .cons hab ih

theorem Table.of_sequence {α : Type} {G : α → Bytes → Prop} {rows : List α} {xs : Bytes} {n : Nat}
    (hs : Sequence G rows xs) (hn : rows.length = n) (hcount : n ≤ 0xFFFF) :
    Table G rows (of16 (UInt16.ofNat n) ++ xs) := by
  refine ⟨UInt16.ofNat n, xs, rfl, ?_, hs⟩
  rw [hn, UInt16.toNat_ofNat']
  exact (Nat.mod_eq_of_lt (by omega)).symm

theorem table_indices {is : List Index} {n : Nat} (hn : is.length = n) (hcount : n ≤ 0xFFFF) :
    Table IndexLayout is (of16 (UInt16.ofNat n) ++ is.flatMap of16) :=
  .of_sequence (sequence_flatMap (List.forall₂_same.2 fun _ _ => rfl)) hn hcount

theorem Framed.of_length {name : Index} {info : Bytes} (h : info.length < 4294967296) :
    Framed name info (of16 name ++ of32 (UInt32.ofNat info.length) ++ info) := by
  refine ⟨UInt32.ofNat info.length, ?_, rfl⟩
  rw [UInt32.toNat_ofNat']
  exact (Nat.mod_eq_of_lt (by omega)).symm

theorem of16_zero : of16 0 = [0, 0] := by decide

theorem of16_one : of16 1 = [0, 1] := by decide

namespace Drafting
open Draft

variable {P : Pool → Prop}

/-! ### Attributes -/

theorem writable_label (c : Outline.Content) : Writable c.label := by
  have h : ∀ s ∈ ["SourceFile", "Exceptions", "MethodParameters", "Code"], Writable s := by decide
  cases c <;> exact h _ (by simp [Outline.Content.label])

theorem sourceFile_effect {name : String} (hname : Writable name) :
    Effect P (sourceFile name) id fun a p => a.Carries p (.sourceFile name) := by
  refine ((utf8_effect (writable_label (.sourceFile name))).bind fun label => (utf8_effect hname).bind fun i =>
    Effect.pure (RawAttribute.mk label (of16 i))).post ?_
  rintro _ p _ ⟨label, hlabel, i, hi, rfl⟩
  exact ⟨hlabel, by simp, .sourceFile i, .sourceFile i, hi⟩

theorem exceptions_effect {names : List String} (hnames : ∀ n ∈ names, Writable n) (hcount : Countable names) :
    Effect P (exceptions names) id fun a p => a.Carries p (.exceptions names) := by
  refine ((Effect.mapM fun n hn P => classRef_effect (hnames n hn)).bind fun rows =>
    (utf8_effect (writable_label (.exceptions names))).bind fun label => Effect.pure (RawAttribute.mk label
      (of16 (UInt16.ofNat names.length) ++ rows.flatMap of16))).post ?_
  rintro _ p _ ⟨rows, hrows, label, hlabel, rfl⟩
  have hlen : rows.length = names.length := hrows.length_eq
  refine ⟨hlabel, ?_, .exceptions rows, .exceptions (table_indices hlen hcount), hrows⟩
  have hbound : names.length ≤ 0xFFFF := hcount
  simp [List.length_flatMap, hlen]
  omega

theorem parameter_effect {name : String} (hname : Writable name) :
    Effect P (parameter name) id fun i p => p.IsParameter ⟨i, 0⟩ name := by
  unfold parameter
  by_cases hempty : name = ""
  · rw [if_pos hempty]
    exact (Effect.pure 0).post fun i p _ hi => ⟨rfl, by rw [if_pos hempty, hi]⟩
  · rw [if_neg hempty]
    exact (utf8_effect hname).post fun i p _ hi => ⟨rfl, by rw [if_neg hempty]; exact hi⟩

theorem parameters_effect {names : List String} (hnames : ∀ n ∈ names, Writable n) (hcount : names.length ≤ 255) :
    Effect P (parameters names) id fun a p => a.Carries p (.parameters names) := by
  refine ((Effect.mapM fun n hn P => parameter_effect (hnames n hn)).bind fun rows =>
    (utf8_effect (writable_label (.parameters names))).bind fun label => Effect.pure (RawAttribute.mk label
      (UInt8.ofNat names.length :: rows.flatMap fun i => of16 i ++ [0, 0]))).post ?_
  rintro _ p _ ⟨rows, hrows, label, hlabel, rfl⟩
  have hlen : rows.length = names.length := hrows.length_eq
  have hbyte : (UInt8.ofNat names.length).toNat = names.length := by
    rw [UInt8.toNat_ofNat']
    exact Nat.mod_eq_of_lt (by omega)
  have hseq : Sequence ParameterLayout (rows.map fun i => ⟨i, 0⟩) (rows.flatMap fun i => of16 i ++ [0, 0]) := by
    apply sequence_flatMap
    rw [List.forall₂_map_right_iff]
    refine List.forall₂_same.2 fun i _ => ?_
    show of16 i ++ [0, 0] = of16 i ++ of16 0
    rw [of16_zero]
  refine ⟨hlabel, ?_, .parameters (rows.map fun i => ⟨i, 0⟩), .parameters _ ?_ hseq, ?_⟩
  · simp [List.length_flatMap, hlen]
    omega
  · rw [List.length_map, hlen, hbyte]
  · exact List.forall₂_map_left_iff.2 hrows

theorem variableRow_effect {v : Variable} (hv : v.Writable) :
    Effect P (variableRow v) id fun bs p => ∃ row, LocalLayout row bs ∧ p.IsLocal row v := by
  refine ((utf8_effect hv.1).bind fun name => (utf8_effect hv.2).bind fun descriptor => Effect.pure
    ([0, 0, 0, 1] ++ of16 name ++ of16 descriptor ++ of16 v.slot)).post ?_
  rintro _ p _ ⟨name, hname, descriptor, hdescriptor, rfl⟩
  refine ⟨⟨0, 1, name, descriptor, v.slot⟩, ?_, rfl, rfl, hname, hdescriptor, rfl⟩
  show _ = of16 0 ++ of16 1 ++ of16 name ++ of16 descriptor ++ of16 v.slot
  rw [of16_zero, of16_one, List.cons_append]
  rfl

/-- The one attribute of a body is a table of its local variables. -/
theorem code_layout {p : Pool} {label : Index} {rows : List Local} {xs : Bytes} {n : Nat}
    (hlabel : p.utf8? label = some "LocalVariableTable") (hrows : Sequence LocalLayout rows xs)
    (hn : rows.length = n) (hcount : n ≤ 0xFFFF) :
    let table := of16 (UInt16.ofNat n) ++ xs
    CodeLayout p ⟨1, 4, [0xB1], [], [⟨label, table, some rows⟩]⟩
      ([0, 1, 0, 4] ++ of32 1 ++ [0xB1] ++ [0, 0] ++ of16 1 ++ of16 label ++
        of32 (UInt32.ofNat table.length) ++ table) := by
  intro table
  have hxs : xs.length = n * 10 := by rw [readLocals_rows.length_eq hrows, hn]
  have htable : table.length < 4294967296 := by
    simp only [table, List.length_append, length_of16, hxs]
    omega
  have hattribute : CodeAttributeLayout p ⟨label, table, some rows⟩
      (of16 label ++ of32 (UInt32.ofNat table.length) ++ table) := by
    refine ⟨.of_length htable, ?_⟩
    unfold Rows
    rw [if_pos hlabel]
    exact ⟨rows, rfl, .of_sequence hrows hn hcount⟩
  refine ⟨1, [0, 0], of16 1 ++ (of16 label ++ of32 (UInt32.ofNat table.length) ++ table), rfl, ?_,
    ⟨0, [], rfl, rfl, .nil⟩, 1, _, rfl, rfl, ?_⟩
  · simp only [List.append_assoc]
    rfl
  · have hsingle := Sequence.cons hattribute .nil
    rwa [List.append_nil] at hsingle

theorem code_effect {locals : List Variable} (hlocals : ∀ v ∈ locals, v.Writable) (hcount : Countable locals) :
    Effect P (code locals) id fun a p => a.Carries p (.code locals) := by
  have hlvt : Writable "LocalVariableTable" := by decide
  refine ((Effect.mapM fun v hv P => variableRow_effect (hlocals v hv)).bind fun rows =>
    (utf8_effect hlvt).bind fun tableLabel => (utf8_effect (writable_label (.code locals))).bind fun label =>
    Effect.pure (RawAttribute.mk label _)).post ?_
  rintro _ p _ ⟨bytes, hbytes, tableLabel, htableLabel, label, hlabel, rfl⟩
  obtain ⟨rows, hlayout, hrows⟩ := exists_between hbytes
  have hlen : rows.length = locals.length := hrows.length_eq
  have hseq : Sequence LocalLayout rows bytes.flatten := by
    have h : Sequence LocalLayout rows (bytes.flatMap id) := sequence_flatMap hlayout
    rwa [List.flatMap_id] at h
  refine ⟨hlabel, ?_, .code _, .code (code_layout htableLabel hseq hlen hcount), ⟨rfl, rfl⟩, rfl, rfl, rows, rfl, hrows⟩
  have hbound : locals.length ≤ 0xFFFF := hcount
  have hflat : bytes.flatten.length = locals.length * 10 := by rw [readLocals_rows.length_eq hseq, hlen]
  simp only [List.length_append, List.length_cons, List.length_nil, length_of16, length_of32, hflat]
  omega

/-! ### Changes of the class -/

/-- A change that leaves the pool alone. -/
theorem modify_effect {g : Draft → Draft} {f : Outline → Outline}
    (hentries : ∀ d, (g d).entries = d.entries) (hnext : ∀ d, (g d).next = d.next)
    (htexts : ∀ d, (g d).texts = d.texts) (hg : ∀ d p o, P p → d.Carries p o → (g d).Carries p (f o)) :
    Effect P (modify g) f fun _ _ => True := by
  intro d
  have hrun : (modify g : Drafting Unit) d = ((), g d) := rfl
  have hpool : (g d).pool = d.pool := by simp only [pool, slots, hentries]
  have hcount : (g d).poolCount = d.poolCount := by simp only [poolCount, hentries]
  rw [hrun]
  refine ⟨hpool ▸ .refl _, fun hd _ => ⟨⟨?_, ?_, ?_⟩, fun p _ hP => ⟨trivial, fun o ho => hg d p o hP ho⟩⟩⟩
  · rw [hentries]
    exact hd.readable
  · rw [hnext, hcount]
    exact hd.next
  · rw [htexts, hpool]
    exact hd.texts

theorem attach_effect {a : RawAttribute} {c : Outline.Content} (h : ∀ p, P p → a.Carries p c) :
    Effect P (attach a) (·.attach c) fun _ _ => True :=
  modify_effect (fun _ => rfl) (fun _ => rfl) (fun _ => rfl) fun _ p _ hP ho =>
    ⟨ho.access, ho.this, ho.super, ho.interfaces, ho.members,
      List.rel_append ho.attributes (.cons (h p hP) .nil)⟩

theorem addMember_effect {m : RawMember} {w : Outline.Member} (h : ∀ p, P p → m.Carries p w) :
    Effect P (addMember m) (·.addMember w) fun _ _ => True :=
  modify_effect (fun _ => rfl) (fun _ => rfl) (fun _ => rfl) fun _ p _ hP ho =>
    ⟨ho.access, ho.this, ho.super, ho.interfaces, List.rel_append ho.members (.cons (h p hP) .nil), ho.attributes⟩

theorem attachTo_effect {a : RawAttribute} {c : Outline.Content} (member : Nat) (h : ∀ p, P p → a.Carries p c) :
    Effect P (attachTo member a) (·.attachTo member c) fun _ _ => True :=
  modify_effect (fun _ => rfl) (fun _ => rfl) (fun _ => rfl) fun _ p _ hP ho =>
    ⟨ho.access, ho.this, ho.super, ho.interfaces, forall₂_modify (fun _ _ hm => ⟨hm.sort, hm.access, hm.name,
      hm.descriptor, List.rel_append hm.attributes (.cons (h p hP) .nil)⟩) ho.members member, ho.attributes⟩

theorem implement_effect {name : String} (hname : Writable name) :
    Effect P (implement name) (fun o => { o with interfaces := o.interfaces ++ [name] }) fun _ _ => True := by
  have hadd : ∀ i, Effect (fun p => P p ∧ p.className? i = some name)
      (modify fun d => { d with interfaces := d.interfaces ++ [i] })
      (fun o => { o with interfaces := o.interfaces ++ [name] }) fun _ _ => True := fun i =>
    modify_effect (fun _ => rfl) (fun _ => rfl) (fun _ => rfl) fun _ _ _ hP ho =>
      ⟨ho.access, ho.this, ho.super, List.rel_append ho.interfaces (.cons hP.2 .nil), ho.members, ho.attributes⟩
  exact ((classRef_effect hname).bind hadd).post fun _ _ _ _ => trivial

theorem implements_effect {names : List String} (hnames : ∀ n ∈ names, Writable n) :
    Effect P (names.forM implement) (fun o => { o with interfaces := o.interfaces ++ names }) fun _ _ => True := by
  induction names generalizing P with
  | nil =>
    simp only [List.append_nil]
    exact (Effect.pure ()).post fun _ _ _ _ => trivial
  | cons n names ih =>
    have hrest := fun P => ih (P := P) fun n' hn' => hnames n' (List.mem_cons_of_mem n hn')
    have h := ((implement_effect (P := P) (hnames n List.mem_cons_self)).bind fun _ => hrest _).post
      (R := fun _ _ => True) fun _ _ _ _ => trivial
    have hcomp : (fun o : Outline => { o with interfaces := o.interfaces ++ n :: names }) =
        (fun o => { o with interfaces := o.interfaces ++ names }) ∘
          fun o => { o with interfaces := o.interfaces ++ [n] } := by
      funext o
      simp
    rw [hcomp]
    exact h

end Drafting

/-! ### Edits -/

namespace Edit
open Drafting Draft

variable {P : Pool → Prop}

/-- A step that changes the class and answers nothing. -/
theorem silent {m : Drafting Unit} {f : Outline → Outline} (h : Effect P m f fun _ _ => True) :
    Effect P (do m; return (none : Option Index)) f fun answer _ => answer = none :=
  (h.bind fun _ => Effect.pure none).post fun _ _ _ ⟨_, _, h⟩ => h

/-- A step that attaches an attribute and answers nothing. -/
theorem attaching {m : Drafting RawAttribute} {k : RawAttribute → Drafting Unit} {c : Outline.Content}
    {f : Outline → Outline} (hm : Effect P m id fun a p => a.Carries p c)
    (hk : ∀ a (Q : Pool → Prop), (∀ p, Q p → a.Carries p c) → Effect Q (k a) f fun _ _ => True) :
    Effect P (do k (← m); return (none : Option Index)) f fun answer _ => answer = none :=
  (hm.bind fun a => silent (hk a _ fun _ hp => hp.2)).post fun _ _ _ ⟨_, _, h⟩ => h

/-- A step that answers with an index. -/
theorem adding {m : Drafting Index} {Q : Index → Pool → Prop} (h : Effect P m id Q) :
    Effect P (some <$> m) id fun answer p => ∃ i, answer = some i ∧ Q i p :=
  (h.map some).post fun _ _ _ ⟨i, hi, h⟩ => ⟨i, h, hi⟩

/-- A step that adds a constant which refers to what was added before, and answers with its index. -/
theorem referring {m : Drafting Index} {Q : Index → Pool → Prop} {c : Index → Constant}
    (htext : ∀ j, (c j).kind ≠ .utf8) (h : Effect P m id Q) :
    Effect P (do return some (← Drafting.constant (c (← m)))) id
      fun answer p => ∃ i j, answer = some i ∧ p.get? i = some (c j) ∧ Q j p := by
  refine (h.bind fun j => (constant_effect (htext j)).bind fun i => Effect.pure (some i)).post ?_
  rintro _ p _ ⟨j, hj, i, hi, hanswer⟩
  exact ⟨i, j, hanswer, hi.1, hj⟩

/-- **An edit adds what it asks for** to the pool and to the class, and changes nothing else. -/
theorem run_effect {e : Edit} (h : e.Writable) :
    Effect P e.run (·.apply e) fun answer p => e.Answered p answer := by
  cases e with
  | access flags =>
    exact silent (modify_effect (fun _ => rfl) (fun _ => rfl) (fun _ => rfl) fun _ _ _ _ ho =>
      ⟨rfl, ho.this, ho.super, ho.interfaces, ho.members, ho.attributes⟩)
  | implements names => exact silent (implements_effect h)
  | super index =>
    exact silent (modify_effect (fun _ => rfl) (fun _ => rfl) (fun _ => rfl) fun _ _ _ _ ho =>
      ⟨ho.access, ho.this, rfl, ho.interfaces, ho.members, ho.attributes⟩)
  | sourceFile name => exact attaching (sourceFile_effect h) fun _ _ => attach_effect
  | classLocals rows => exact attaching (code_effect h.1 h.2) fun _ _ => attach_effect
  | member sort flags name descriptor =>
    refine ((utf8_effect h.1).bind fun i => (utf8_effect h.2).bind fun j => silent (addMember_effect
      (w := ⟨sort, flags, .text name, .text descriptor, []⟩) ?_)).post ?_
    · exact fun p hp => ⟨rfl, rfl, hp.1.2, hp.2, .nil⟩
    · rintro _ p _ ⟨_, _, _, _, hanswer⟩
      exact hanswer
  | rawMember sort flags name descriptor =>
    exact silent (addMember_effect fun _ _ => ⟨rfl, rfl, rfl, rfl, .nil⟩)
  | throws owner names => exact attaching (exceptions_effect h.1 h.2) fun _ _ => attachTo_effect owner
  | locals owner rows => exact attaching (code_effect h.1 h.2) fun _ _ => attachTo_effect owner
  | parameters owner names => exact attaching (parameters_effect h.1 h.2) fun _ _ => attachTo_effect owner
  | utf8 text => exact adding (utf8_effect h)
  | string text =>
    refine (adding (string_effect h)).post ?_
    rintro _ p _ ⟨i, hanswer, j, hj⟩
    exact ⟨i, j, hanswer, hj⟩
  | classNamed name => exact adding (classRef_effect h)
  | nameAndType name descriptor => exact adding (nameAndType_effect h.1 h.2)
  | fieldref owner name descriptor => exact adding (reference_effect (by simp [Constant.kind]) h.1 h.2.1 h.2.2)
  | methodref owner name descriptor => exact adding (reference_effect (by simp [Constant.kind]) h.1 h.2.1 h.2.2)
  | interfaceMethodref owner name descriptor => exact adding (reference_effect (by simp [Constant.kind]) h.1 h.2.1 h.2.2)
  | pair tag first second =>
    have htext : ∀ s, (Entry.pair tag first second).meaning ≠ .utf8 s := by
      intro s
      simp only [Entry.meaning]
      split
      · simp
      · split <;> simp
    refine (adding (add_effect (e := .pair tag first second) h htext)).post ?_
    rintro _ p _ ⟨i, rfl, hi, _⟩
    refine ⟨i, rfl, ?_⟩
    rcases h with rfl | rfl | rfl
    · exact .inl ⟨rfl, hi⟩
    · exact .inr (.inl ⟨rfl, hi⟩)
    · exact .inr (.inr ⟨rfl, hi⟩)
  | methodType descriptor => exact referring (by simp [Constant.kind]) (utf8_effect h)
  | dynamic bootstrap name descriptor => exact referring (by simp [Constant.kind]) (nameAndType_effect h.1 h.2)
  | invokeDynamic bootstrap name descriptor => exact referring (by simp [Constant.kind]) (nameAndType_effect h.1 h.2)
  | module name => exact referring (by simp [Constant.kind]) (utf8_effect h)
  | package name => exact referring (by simp [Constant.kind]) (utf8_effect h)
  | constant c => exact adding (constant_effect h)

theorem get_effect : Effect P (get : Drafting Draft) id fun _ _ => True :=
  fun d => ⟨.refl d.pool, fun hd _ => ⟨hd, fun _ _ _ => ⟨trivial, fun _ h => h⟩⟩⟩

/-- A list of edits adds what each of them asks for. -/
theorem runAll_effect {edits : List Edit} (h : ∀ e ∈ edits, e.Writable) :
    Effect P (fun d => runAll d edits) (edits.foldl Outline.apply ·) fun answers p =>
      List.Forall₂ (fun answer e => e.Answered p answer.1) answers edits := by
  induction edits generalizing P with
  | nil => exact (Effect.pure []).post fun _ _ _ h => h ▸ .nil
  | cons e rest ih =>
    have hrest := fun P => ih (P := P) fun e' he' => h e' (List.mem_cons_of_mem e he')
    have hrun : (fun d => runAll d (e :: rest)) = (do
        let answer ← e.run
        let d ← get
        let answers ← fun d => runAll d rest
        return (answer, d.count) :: answers : Drafting (List (Option Index × Nat))) := rfl
    rw [hrun]
    refine ((run_effect (h e List.mem_cons_self)).bind fun answer => get_effect.bind fun d =>
      (hrest _).bind fun answers => Effect.pure ((answer, d.count) :: answers)).post ?_
    rintro _ p _ ⟨answer, hanswer, d, _, answers, hanswers, rfl⟩
    exact .cons hanswer hanswers

end Edit

namespace Draft
open Drafting

/-! ### The start of a draft -/

theorem classRef_keeps (s : String) (d : Draft) :
    ∃ entries next texts, (classRef s d).2 = { d with entries, next, texts } := by
  have hrun : (classRef s d).2 = (constant (.classRef (utf8 s d).1) (utf8 s d).2).2 := rfl
  rw [hrun]
  unfold utf8
  cases d.texts.lookup s with
  | some i => exact ⟨_, _, _, rfl⟩
  | none => exact ⟨_, _, _, rfl⟩

theorem start_eq (name super : String) :
    start name super =
      if super = "" then { (classRef name blank).2 with this := (classRef name blank).1 }
      else { (classRef super (classRef name blank).2).2 with
        this := (classRef name blank).1
        super := (classRef super (classRef name blank).2).1 } := rfl

/-- A draft starts sound and carries the class without members. -/
theorem start_carries {name super : String} (hname : Writable name) (hsuper : Writable super)
    (hroom : (start name super).poolCount ≤ 0xFFFF) :
    (start name super).Sound ∧
      ∀ p : Pool, p.Extends (start name super).pool → (start name super).Carries p (.start name super) := by
  obtain ⟨_, hthis⟩ := classRef_effect (P := fun _ => True) hname blank
  obtain ⟨es, n, ts, hkeep⟩ := classRef_keeps name blank
  by_cases hempty : super = ""
  · rw [start_eq, if_pos hempty] at hroom ⊢
    obtain ⟨hd, hthis⟩ := hthis blank_sound hroom
    refine ⟨⟨hd.readable, hd.next, hd.texts⟩, fun p hp => ?_⟩
    have hclass := (hthis p hp trivial).1
    rw [hkeep]
    refine ⟨rfl, hclass, ?_, .nil, .nil, .nil⟩
    rw [Outline.start, if_pos hempty]
    rfl
  · obtain ⟨hext, hsup⟩ := classRef_effect (P := fun _ => True) hsuper (classRef name blank).2
    obtain ⟨es', n', ts', hkeep'⟩ := classRef_keeps super (classRef name blank).2
    rw [start_eq, if_neg hempty] at hroom ⊢
    obtain ⟨hd, hthis⟩ := hthis blank_sound (Nat.le_trans (poolCount_le hext) hroom)
    obtain ⟨hd', hsup⟩ := hsup hd hroom
    refine ⟨⟨hd'.readable, hd'.next, hd'.texts⟩, fun p hp => ?_⟩
    have hclass := (hthis p (hp.trans hext) trivial).1
    have hsuperClass := (hsup p hp trivial).1
    rw [hkeep', hkeep]
    refine ⟨rfl, hclass, ?_, .nil, .nil, .nil⟩
    rw [Outline.start, if_neg hempty]
    rw [hkeep] at hsuperClass
    exact hsuperClass

/-! ### The file of a draft -/

theorem attribute_layout {p : Pool} {a : RawAttribute} {c : Outline.Content} (h : a.Carries p c) :
    ∃ b : Attribute, AttributeLayout p b (of16 a.name ++ of32 (UInt32.ofNat a.info.length) ++ a.info) ∧
      p.IsAttribute b c := by
  obtain ⟨hname, hlen, body, hbody, hsays⟩ := h
  exact ⟨⟨a.name, a.info, some body⟩, ⟨.of_length hlen, .inl ⟨c.label, body, hname, rfl, hbody⟩⟩, hname, body,
    rfl, hsays⟩

theorem attributes_layout {p : Pool} {as : List RawAttribute} {cs : List Outline.Content}
    (h : List.Forall₂ (RawAttribute.Carries p) as cs) (hcount : Countable cs) :
    ∃ bs, Table (AttributeLayout p) bs (encodeAttributes as) ∧ List.Forall₂ p.IsAttribute bs cs := by
  obtain ⟨bs, hlayout, hbs⟩ := exists_between (h.imp fun _ _ h => attribute_layout h)
  refine ⟨bs, .of_sequence (sequence_flatMap hlayout) hlayout.length_eq.symm ?_, hbs⟩
  rw [h.length_eq]
  exact hcount

theorem member_layout {p : Pool} {m : RawMember} {w : Outline.Member} (h : m.Carries p w)
    (hcount : Countable w.attributes) :
    ∃ n : Member, MemberLayout p n
      (of16 m.access ++ of16 m.name ++ of16 m.descriptor ++ encodeAttributes m.attributes) ∧ p.IsMember n w := by
  obtain ⟨bs, htable, hbs⟩ := attributes_layout h.attributes hcount
  exact ⟨⟨m.access, m.name, m.descriptor, bs⟩, ⟨_, rfl, htable⟩, h.access, h.name, h.descriptor, hbs⟩

theorem members_layout {p : Pool} {ms : List RawMember} {ws : List Outline.Member}
    (h : List.Forall₂ (RawMember.Carries p) ms ws) (hcount : Countable ws) (hws : ∀ w ∈ ws, Countable w.attributes) :
    ∃ ns, Table (MemberLayout p) ns (encodeMembers ms) ∧ List.Forall₂ p.IsMember ns ws := by
  have hboth : List.Forall₂ (fun m w => ∃ n : Member, MemberLayout p n
      (of16 m.access ++ of16 m.name ++ of16 m.descriptor ++ encodeAttributes m.attributes) ∧ p.IsMember n w) ms ws := by
    clear hcount
    induction h with
    | nil => exact .nil
    | @cons m w _ _ hmw _ ih =>
      exact .cons (member_layout hmw (hws w List.mem_cons_self)) (ih fun w' hw' => hws w' (List.mem_cons_of_mem w hw'))
  obtain ⟨ns, hlayout, hns⟩ := exists_between hboth
  refine ⟨ns, .of_sequence (sequence_flatMap hlayout) hlayout.length_eq.symm ?_, hns⟩
  rw [h.length_eq]
  exact hcount

/-- The members of one sort, in the draft and in the outline. -/
theorem Carries.membersOf {d : Draft} {p : Pool} {o : Outline} (h : d.Carries p o) (sort : MemberSort) :
    List.Forall₂ (RawMember.Carries p) (d.membersOf sort) (o.membersOf sort) := by
  refine List.rel_filter (fun m w hmw => ?_) h.members
  show m.sort == sort ↔ w.sort == sort
  rw [hmw.sort]

/-- **The file of a sound draft spells a class that realizes what the draft carries.** -/
theorem encode_layout {d : Draft} {o : Outline} (hd : d.Sound) (hcarries : d.Carries d.pool o) (ho : o.Fits) :
    ∃ c : ClassModel, ClassLayout c d.encode ∧ c.Realizes o ∧ c.pool = d.pool := by
  have hmembers : ∀ sort, ∀ w ∈ o.membersOf sort, Countable w.attributes := fun sort w hw =>
    ho.members w (List.mem_of_mem_filter hw)
  obtain ⟨fields, hfields, hfs⟩ := members_layout (hcarries.membersOf .field) ho.fields (hmembers _)
  obtain ⟨methods, hmethods, hms⟩ := members_layout (hcarries.membersOf .method) ho.methods (hmembers _)
  obtain ⟨attributes, hattributes, has⟩ := attributes_layout hcarries.attributes ho.attributes
  have hinterfaces : d.interfaces.length ≤ 0xFFFF := by
    rw [hcarries.interfaces.length_eq]
    exact ho.interfaces
  have hcount : d.next.toNat = d.pool.slots.size + 1 := by
    rw [hd.next, poolCount_eq]
    rfl
  refine ⟨⟨0, 52, d.pool, d.access, d.this, d.super, d.interfaces, fields, methods, attributes⟩,
    ⟨d.next, d.entries.toList.flatMap Entry.encode, _, _, _, _, ?_, hcount, slots_layout hd.readable,
      table_indices rfl hinterfaces, hfields, hmethods, hattributes⟩,
    ⟨⟨rfl, rfl⟩, hcarries.access, hcarries.this, hcarries.super, hcarries.interfaces, hfs, hms, has⟩, rfl⟩
  have hmagic : of32 0xCAFEBABE = [0xCA, 0xFE, 0xBA, 0xBE] := by decide
  simp only [encode, hmagic, List.append_assoc]

/-- The table of texts of a sound draft gives each text its only slot. -/
theorem Sound.interned {d : Draft} (hd : d.Sound) : d.pool.Interned := by
  intro i j s hi hj
  have hsame := ((hd.texts s i).2 hi).symm.trans ((hd.texts s j).2 hj)
  exact Option.some.inj hsame

end Draft

/-! ### Building and reading -/

/-- **Reading undoes building.** Whatever edits are made on a new class, as long as the file format can
hold their texts and lists and the pool count stays within a word, the file reads back, with nothing
left over, as the class that the edits ask for. -/
theorem decode_runAll (name super : String) (edits : List Edit) (hname : Writable name) (hsuper : Writable super)
    (hedits : ∀ e ∈ edits, e.Writable)
    (hpool : (Edit.runAll (Draft.start name super) edits).2.poolCount ≤ 0xFFFF)
    (hlists : (Outline.ofEdits name super edits).Fits) :
    ∃ c : ClassModel,
      decode ⟨(Edit.runAll (Draft.start name super) edits).2.encode, .finished⟩ = .ok (c, []) ∧
      c.Realizes (Outline.ofEdits name super edits) ∧
      List.Forall₂ (fun answer e => e.Answered c.pool answer.1) (Edit.runAll (Draft.start name super) edits).1 edits ∧
      c.pool.Interned := by
  obtain ⟨hext, hrun⟩ := Edit.runAll_effect (P := fun _ => True) hedits (Draft.start name super)
  obtain ⟨hsound, hstart⟩ := Draft.start_carries hname hsuper (Nat.le_trans (Drafting.poolCount_le hext) hpool)
  obtain ⟨hd, hrun⟩ := hrun hsound hpool
  obtain ⟨hanswers, hcarries⟩ := hrun _ (.refl _) trivial
  obtain ⟨c, hlayout, hrealizes, hcpool⟩ := Draft.encode_layout hd (hcarries _ (hstart _ hext)) hlists
  refine ⟨c, (decode_iff_layout _ _ _ _).2 ⟨_, (List.append_nil _).symm, hlayout⟩, hrealizes, ?_, ?_⟩
  · rw [hcpool]
    exact hanswers
  · rw [hcpool]
    exact hd.interned

/-- Edits of every sort: texts used twice, a constant of two slots before others, a name that is not ASCII, a
parameter without a name, an index chosen by hand and attributes of a method and of the class. -/
def sampleEdits : List Edit :=
  [.constant (.long (-1)), .implements ["java/io/Serializable", "p/A"], .utf8 "p/A", .string "é\x00",
    .member .field 2 "x" "I", .member .method 1 "m" "(IJ)V", .throws 1 ["java/io/IOException"],
    .locals 1 [⟨"this", "Lp/A;", 0⟩, ⟨"x", "I", 1⟩], .parameters 1 ["x", ""], .rawMember .method 8 5 65535,
    .pair 10 3 900, .dynamic 7 "x" "I", .sourceFile "A.java", .access 0x0421, .super 0]

theorem decode_sampleEdits :
    (∀ e ∈ sampleEdits, e.Writable) ∧
    ∃ c : ClassModel,
      decode ⟨(Edit.runAll (Draft.start "p/A" "java/lang/Object") sampleEdits).2.encode, .finished⟩ = .ok (c, []) ∧
      c.Realizes (Outline.ofEdits "p/A" "java/lang/Object" sampleEdits) ∧
      List.Forall₂ (fun answer e => e.Answered c.pool answer.1)
        (Edit.runAll (Draft.start "p/A" "java/lang/Object") sampleEdits).1 sampleEdits ∧ c.pool.Interned := by
  have hedits : ∀ e ∈ sampleEdits, e.Writable := by decide +kernel
  have hpool : (Edit.runAll (Draft.start "p/A" "java/lang/Object") sampleEdits).2.poolCount ≤ 0xFFFF := by
    decide +kernel
  have hlists : (Outline.ofEdits "p/A" "java/lang/Object" sampleEdits).Fits :=
    ⟨by decide, by decide, by decide, by decide, by decide⟩
  exact ⟨hedits, decode_runAll _ _ _ (by decide) (by decide) hedits hpool hlists⟩

end ClassAtlas.ClassFile
