import ClassAtlas.Proofs.Xref.Collection
import ClassAtlas.Proofs.Xref.WellFormed

/-! What the failures of the stages tell.

The error of a walk is that of one fault, with the parts of the class around it in front
(`Tells`); so it wraps the sentinel of malformed models, whatever the fault quotes, and no
other. A walk keeps to this because its steps do (`Fails`): they blame a fault, or pass an inner
failure on. The error of a scan over the constants is that of the constant that ends it. -/
namespace ClassAtlas.Xref
open ClassFile

/-- The error is that of a fault with the property, under the labels of zero or more parts. -/
inductive Tells (P : ModelFault → Prop) : Error → Prop where
  | fault {fault : ModelFault} (h : P fault) : Tells P fault.error
  | under {e : Error} (part : Part) (h : Tells P e) : Tells P (e.under part.label)

theorem ModelFault.exists_saying (fault : ModelFault) :
    ∃ text, fault.error = Sentinel.malformedModel.saying text := by
  cases fault <;> exact ⟨_, rfl⟩

/-- The text of an undecoded source file is that of no other fault. -/
theorem ModelFault.eq_sourceFile {fault : ModelFault} (h : fault.error = ModelFault.sourceFile.error) :
    fault = .sourceFile := by
  cases fault with
  | sourceFile => rfl
  | _ =>
    -- The texts differ in their first letter.
    have htext := congrArg String.toList (Error.wrap.inj h).2.2
    simp [String.toList_append] at htext

namespace Tells

variable {P : ModelFault → Prop} {e : Error}

theorem kind (h : Tells P e) : e.kind = .malformedModel := by
  induction h with
  | @fault fault _ =>
    obtain ⟨text, htext⟩ := fault.exists_saying
    rw [htext]
    exact Error.kind_saying ..
  | under part _ ih => exact (Error.kind_under ..).trans ih

theorem not_mem_chain (h : Tells (· ≠ .sourceFile) e) : ModelFault.sourceFile.error ∉ e.chain := by
  induction h with
  | @fault fault h =>
    obtain ⟨text, htext⟩ := fault.exists_saying
    intro hmem
    rw [htext] at hmem
    rcases List.mem_cons.1 hmem with heq | hmem
    · exact h (ModelFault.eq_sourceFile (htext.trans heq.symm))
    · cases List.mem_singleton.1 hmem
  | under part _ ih =>
    intro hmem
    rcases List.mem_cons.1 hmem with heq | hmem
    · exact absurd (Error.wrap.inj heq).2.2 (by decide)
    · exact ih hmem

end Tells

/-- Whatever error the walk ends with tells of such a fault. -/
def Fails {α : Type} (P : ModelFault → Prop) (w : Walk α) : Prop := ∀ e, w = .error e → Tells P e

section Steps
variable {α β : Type} {P : ModelFault → Prop} {w : Walk α} {f : α → Walk β}

namespace Fails

theorem ok (a : α) : Fails P (.ok a : Walk α) := nofun

theorem fail {fault : ModelFault} (h : P fault) : Fails P (Walk.fail fault : Walk α) := by
  rintro _ ⟨⟩
  exact .fault h

theorem within (part : Part) (h : Fails P w) : Fails P (Walk.within part w) := by
  cases w with
  | ok a => exact ok a
  | error e =>
    rintro _ ⟨⟩
    exact .under part (h e rfl)

theorem bind (h : Fails P w) (hf : ∀ a, Fails P (f a)) : Fails P (w >>= f) := by
  cases w with
  | ok a => exact hf a
  | error e =>
    rintro _ ⟨⟩
    exact h e rfl

theorem map (h : Fails P w) (g : α → β) : Fails P (g <$> w) := h.bind fun a => ok (g a)

theorem mapM {f : α → Walk β} (hf : ∀ a, Fails P (f a)) (as : List α) : Fails P (as.mapM f) := by
  induction as with
  | nil => exact ok []
  | cons a as ih =>
    rw [List.mapM_cons]
    exact (hf a).bind fun b => ih.bind fun bs => ok (b :: bs)

end Fails

namespace Walk

variable (hP : ∀ fault, fault ≠ .sourceFile → P fault) (pool : Pool)
include hP

theorem utf8_fails (i : Index) : Fails P (utf8 pool i) := by
  unfold utf8
  cases pool.utf8? i with
  | none => exact .fail (hP _ nofun)
  | some text => exact .ok text

theorem className_fails (i : Index) : Fails P (className pool i) := by
  unfold className
  split
  · exact (utf8_fails hP pool _).bind fun text => .ok _
  · exact .fail (hP _ nofun)

theorem classUse_fails (before : String) (i : Index) : Fails P (classUse pool before i) :=
  (className_fails hP pool i).bind fun _ => .ok _

theorem localRow_fails (l : Local) : Fails P (localRow pool l) := by
  refine .bind (.within _ (utf8_fails hP pool l.name)) fun name => ?_
  refine .bind (.within _ (utf8_fails hP pool l.descriptor)) fun text => ?_
  dsimp only
  split
  · exact .ok _
  · cases Spelling.type true text with
    | error fault => exact .fail (hP _ nofun)
    | ok type => exact .ok _

theorem locals_fails (code : Code) : Fails P (locals pool code) :=
  (Fails.mapM (localRow_fails hP pool) _).map _

theorem field_fails (f : Member) : Fails P (field pool f) := by
  refine .bind (utf8_fails hP pool f.name) fun name => .bind (utf8_fails hP pool f.descriptor) fun text => ?_
  cases Spelling.type true text with
  | error fault => exact .fail (hP _ nofun)
  | ok type => exact .ok _

theorem parameterNames_fails (m : Member) (count : Nat) : Fails P (parameterNames pool m count) := by
  have hname : ∀ x : Parameter × Nat, Fails P (parameterName pool x.2 x.1) := by
    intro x
    unfold parameterName
    split
    · exact .ok _
    · exact .within _ (utf8_fails hP pool _)
  unfold parameterNames
  split
  · exact .ok _
  · split
    · split
      · exact .bind (.mapM hname _) fun names => .ok _
      · exact .ok _
    · exact .ok _

theorem throws_fails (classes : List Index) : Fails P (throws pool classes) :=
  (Fails.mapM (fun _ => .within _ (classUse_fails hP pool _ _)) _).map _

theorem method_fails (m : Member) : Fails P (method pool m) := by
  refine .bind (utf8_fails hP pool m.name) fun name => .bind (utf8_fails hP pool m.descriptor) fun text => ?_
  cases Spelling.signature true text with
  | error fault => exact .fail (hP _ nofun)
  | ok signature =>
    refine .within _ (.bind (parameterNames_fails hP pool m _) fun names => ?_)
    exact .bind (.mapM (throws_fails hP pool) _) fun thrown => .bind (.mapM (locals_fails hP pool) _) fun bodies => .ok _

theorem header_fails (c : ClassModel) : Fails P (header c) := by
  have himplemented := Fails.mapM (f := fun x : Index × Nat => within (.interface x.2)
    (classUse c.pool (if x.2 = 0 then " implements " else " ") x.1))
    (fun _ => .within _ (classUse_fails hP c.pool _ _)) c.interfaces.zipIdx
  refine .bind (.within _ (className_fails hP c.pool c.this)) fun name => ?_
  dsimp only
  split
  · exact .bind (.ok _) fun extended => .bind himplemented fun implemented => .ok _
  · exact .bind (.within _ (classUse_fails hP c.pool _ _)) fun extended => .bind himplemented fun implemented => .ok _

/-- Where the attribute has contents, what can be wrong is the index in them. -/
theorem sourceFile_fails {c : ClassModel}
    (h : P .sourceFile ∨ ∀ a, c.attribute? "SourceFile" = some a → ∃ i, a.sourceFile? = some i) :
    Fails P (sourceFile c) := by
  unfold sourceFile
  cases ha : c.attribute? "SourceFile" with
  | none => exact .ok _
  | some a =>
    dsimp only
    cases hi : a.sourceFile? with
    | none =>
      refine .bind (.fail (h.resolve_right fun hcontents => ?_)) fun name => .ok _
      obtain ⟨i, hi'⟩ := hcontents a ha
      rw [hi] at hi'
      cases hi'
    | some i => exact .bind (.within _ (utf8_fails hP c.pool i)) fun name => .ok _

theorem items_fails {c : ClassModel}
    (h : P .sourceFile ∨ ∀ a, c.attribute? "SourceFile" = some a → ∃ i, a.sourceFile? = some i) :
    Fails P (Walk.items c) := by
  refine .bind (sourceFile_fails hP h) fun source => .bind (header_fails hP c) fun head => ?_
  refine .bind (.mapM (locals_fails hP c.pool) _) fun bodies => ?_
  refine .bind (.mapM (fun _ => .within _ (field_fails hP c.pool _)) _) fun fields => ?_
  exact .bind (.mapM (fun _ => .within _ (method_fails hP c.pool _)) _) fun methods => .ok _

end Walk

end Steps

/-- A class that cannot be rendered is malformed. -/
theorem kind_of_render {links : Linker} {c : ClassModel} {e : Error} (h : render links c = .error e) :
    e.kind = .malformedModel := by
  have hitems : Fails (fun _ => True) (Walk.items c) := Walk.items_fails (fun _ _ => trivial) (.inl trivial)
  exact (hitems.bind (fun items => .ok _) e h).kind

/-! ### Constants -/

namespace Resolver

theorem kind_of_collectFrom {pool : Pool} {ns : List Nat} {found : List String} {m m' : Marks} {e : Error}
    (h : (collectFrom pool ns found).run m = (.error e, m')) : e.kind = .malformedConstant := by
  induction ns generalizing m found with
  | nil => cases h
  | cons n rest ih =>
    by_cases hn : Unmarked pool m (.ofNat n)
    · rw [run_collectFrom_of_unmarked hn] at h
      rcases hresolve : (resolve pool (.ofNat n)).run m with ⟨e' | text, m''⟩
      · rw [hresolve] at h
        cases h
        exact kind_of_resolve hresolve
      · rw [hresolve] at h
        exact ih h
    · rw [run_collectFrom_of_not_unmarked hn] at h
      exact ih h

/-- A constant that ends the scan is malformed. -/
theorem kind_of_collect {pool : Pool} {m : Marks} {e : Error} (h : ((collect pool).run m).1 = .error e) :
    e.kind = .malformedConstant := by
  unfold collect at h
  rw [run_bind] at h
  rcases hscan : (collectFrom pool (List.range' 1 (pool.count - 1)) []).run m with ⟨e' | found, m'⟩
  · rw [hscan] at h
    cases h
    exact kind_of_collectFrom hscan
  · rw [hscan] at h
    cases h

end Resolver
end ClassAtlas.Xref
