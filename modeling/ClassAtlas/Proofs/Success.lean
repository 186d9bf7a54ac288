import Mathlib.Data.List.Forall2

/-! What the success of a computation says about its parts. A sequence succeeds when each step
does, and a step repeated over a list succeeds when it does at every element. -/
namespace ClassAtlas

variable {ε ε' α β : Type}

theorem bind_eq_ok {x : Except ε α} {f : α → Except ε β} {b : β} :
    x >>= f = .ok b ↔ ∃ a, x = .ok a ∧ f a = .ok b := by
  cases x with
  | error e => exact ⟨nofun, nofun⟩
  | ok a =>
    constructor
    · intro h
      exact ⟨a, rfl, h⟩
    · rintro ⟨_, ha, h⟩
      obtain rfl := Except.ok.inj ha
      exact h

theorem pure_eq_ok {a b : α} : (pure a : Except ε α) = .ok b ↔ b = a := by
  show Except.ok a = .ok b ↔ b = a
  rw [Except.ok.injEq, eq_comm]

theorem map_eq_ok {f : α → β} {x : Except ε α} {b : β} :
    f <$> x = .ok b ↔ ∃ a, x = .ok a ∧ f a = b := by
  cases x <;> simp [Functor.map, Except.map]

theorem mapError_eq_ok {f : ε → ε'} {x : Except ε α} {a : α} :
    x.mapError f = .ok a ↔ x = .ok a := by
  cases x <;> simp [Except.mapError]

/-- After a check that would throw, a computation goes on where the check finds nothing. -/
theorem check_eq_ok {p : Prop} [Decidable p] {e : ε} {after : α → Except ε β} {x : Except ε β} {b : β} :
    (if p then throw e >>= after else x) = .ok b ↔ ¬ p ∧ x = .ok b := by
  by_cases hp : p
  · rw [if_pos hp]
    exact ⟨nofun, fun h => absurd hp h.1⟩
  · rw [if_neg hp]
    exact ⟨fun h => ⟨hp, h⟩, fun h => h.2⟩

theorem state_bind_eq_ok {σ : Type} {r : StateT σ (Except ε) α} {f : α → StateT σ (Except ε) β} {s : σ}
    {p : β × σ} : (r >>= f) s = .ok p ↔ ∃ a s', r s = .ok (a, s') ∧ f a s' = .ok p := by
  show (r s >>= fun q => f q.1 q.2) = .ok p ↔ _
  rw [bind_eq_ok, Prod.exists]

theorem mapM_eq_ok {f : α → Except ε β} {xs : List α} {ys : List β} :
    xs.mapM f = .ok ys ↔ List.Forall₂ (fun x y => f x = .ok y) xs ys := by
  induction xs generalizing ys with
  | nil => rw [List.mapM_nil, pure_eq_ok, List.forall₂_nil_left_iff]
  | cons x xs ih =>
    rw [List.mapM_cons, bind_eq_ok, List.forall₂_cons_left_iff]
    simp only [bind_eq_ok, pure_eq_ok, ih]
    constructor
    · rintro ⟨y, hy, ys', hys, rfl⟩
      exact ⟨y, ys', hy, hys, rfl⟩
    · rintro ⟨y, ys', hy, hys, rfl⟩
      exact ⟨y, hy, ys', hys, rfl⟩

/-- What is checked at every element holds at every element. -/
theorem forall_mem_of_all {p : α → Prop} [DecidablePred p] {xs : List α}
    (h : xs.all (fun x => decide (p x)) = true) : ∀ x ∈ xs, p x := by
  simpa using h

/-- Numbers beside the elements of a list do not matter to a relation that leaves them out. -/
theorem forall₂_zipIdx {R : α → β → Prop} {xs : List α} {ys : List β} {n : Nat} :
    List.Forall₂ (fun x y => R x.1 y) (xs.zipIdx n) ys ↔ List.Forall₂ R xs ys := by
  rw [← List.forall₂_map_left_iff, List.zipIdx_map_fst]

theorem exists_of_mem_left {R : α → β → Prop} {xs : List α} {ys : List β} (h : List.Forall₂ R xs ys) {x : α}
    (hx : x ∈ xs) : ∃ y ∈ ys, R x y := by
  induction h with
  | nil => cases hx
  | @cons a b _ _ hab _ ih =>
    rcases List.mem_cons.1 hx with rfl | hx
    · exact ⟨b, List.mem_cons_self, hab⟩
    · obtain ⟨y, hy, hR⟩ := ih hx
      exact ⟨y, List.mem_cons_of_mem b hy, hR⟩

/-- There is a list of partners exactly when each element has a partner. -/
theorem exists_forall₂_iff {R : α → β → Prop} {xs : List α} :
    (∃ ys, List.Forall₂ R xs ys) ↔ ∀ x ∈ xs, ∃ y, R x y := by
  constructor
  · rintro ⟨ys, h⟩ x hx
    obtain ⟨y, -, hxy⟩ := exists_of_mem_left h hx
    exact ⟨y, hxy⟩
  · intro h
    induction xs with
    | nil => exact ⟨[], .nil⟩
    | cons x xs ih =>
      obtain ⟨y, hy⟩ := h x List.mem_cons_self
      obtain ⟨ys, hys⟩ := ih fun x' hx' => h x' (List.mem_cons_of_mem x hx')
      exact ⟨y :: ys, .cons hy hys⟩

theorem forall_mem_zipIdx {P : α → Prop} {xs : List α} {n : Nat} :
    (∀ x ∈ xs.zipIdx n, P x.1) ↔ ∀ x ∈ xs, P x := by
  have h := @List.forall_mem_map _ _ Prod.fst (xs.zipIdx n) P
  rw [List.zipIdx_map_fst] at h
  exact h.symm

/-- What is picked from groups one after the other, each of which comes from an element. -/
theorem filterMap_groups {γ : Type} {f : β → Option γ} {pick : α → List γ} {xs : List α} {groups : List (List β)}
    (h : List.Forall₂ (fun x g => g.filterMap f = pick x) xs groups) :
    groups.flatten.filterMap f = xs.flatMap pick := by
  induction h with
  | nil => rfl
  | cons hx _ ih => rw [List.flatten_cons, List.filterMap_append, List.flatMap_cons, hx, ih]

/-- Elements related through a third have a list of thirds. -/
theorem exists_between {γ : Type} {R : α → β → Prop} {S : β → γ → Prop} {xs : List α} {zs : List γ}
    (h : List.Forall₂ (fun x z => ∃ y, R x y ∧ S y z) xs zs) :
    ∃ ys, List.Forall₂ R xs ys ∧ List.Forall₂ S ys zs := by
  induction h with
  | nil => exact ⟨[], .nil, .nil⟩
  | cons hxz _ ih =>
    obtain ⟨y, hxy, hyz⟩ := hxz
    obtain ⟨ys, hR, hS⟩ := ih
    exact ⟨y :: ys, .cons hxy hR, .cons hyz hS⟩

theorem forall₂_modify {R : α → β → Prop} {f : α → α} {g : β → β} (hfg : ∀ x y, R x y → R (f x) (g y))
    {xs : List α} {ys : List β} (h : List.Forall₂ R xs ys) (n : Nat) :
    List.Forall₂ R (xs.modify n f) (ys.modify n g) := by
  induction h generalizing n with
  | nil =>
    rw [List.modify_nil, List.modify_nil]
    exact .nil
  | cons hxy hrest ih =>
    cases n with
    | zero => exact .cons (hfg _ _ hxy) hrest
    | succ n => exact .cons hxy (ih n)

end ClassAtlas
