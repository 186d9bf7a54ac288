import ClassAtlas.ClassFile.Decode
import ClassAtlas.Proofs.Success

/-! Readers and the byte strings they accept.

A grammar relates a value to the bytes that spell it. A reader *accepts* a grammar
(`Accepts`) when it succeeds on exactly the inputs that start with a spelling, gives the value
spelled and leaves what follows: nothing is invented and nothing is missed. Acceptance goes
through sequencing (`Accepts.bind`) and through counted repetition (`Accepts.mapM`), so the
grammar of a reader is put together as the reader is. -/
namespace ClassAtlas.ClassFile

/-- A state of a reader: the bytes still to be read, and perhaps more that reading leaves alone. -/
class Source (σ : Type) where
  bytes : σ → Bytes
  put : σ → Bytes → σ
  bytes_put (s : σ) (bs : Bytes) : bytes (put s bs) = bs
  put_bytes (s : σ) : put s (bytes s) = s
  put_put (s : σ) (bs bs' : Bytes) : put (put s bs) bs' = put s bs'

instance : Source Input where
  bytes := Input.bytes
  put := fun s bs => { s with bytes := bs }
  bytes_put := fun _ _ => rfl
  put_bytes := fun _ => rfl
  put_put := fun _ _ _ => rfl

instance : Source Bytes where
  bytes := id
  put := fun _ bs => bs
  bytes_put := fun _ _ => rfl
  put_bytes := fun _ => rfl
  put_put := fun _ _ _ => rfl

variable {σ ε α β : Type} [Source σ]

/-- The reader succeeds on exactly the inputs that start with a spelling of its result. -/
def Accepts (r : StateT σ (Except ε) α) (G : α → Bytes → Prop) : Prop :=
  ∀ s a s', r s = .ok (a, s') ↔
    ∃ front rest, Source.bytes s = front ++ rest ∧ s' = Source.put s rest ∧ G a front

/-- Values one after the other. -/
inductive Sequence (G : α → Bytes → Prop) : List α → Bytes → Prop where
  | nil : Sequence G [] []
  | cons {a x as xs} : G a x → Sequence G as xs → Sequence G (a :: as) (x ++ xs)

namespace Accepts

theorem congr {r : StateT σ (Except ε) α} {G H : α → Bytes → Prop} (h : Accepts r G)
    (he : ∀ a bs, G a bs ↔ H a bs) : Accepts r H := by
  obtain rfl : G = H := funext fun a => funext fun bs => propext (he a bs)
  exact h

theorem pure (a : α) : Accepts (Pure.pure a : StateT σ (Except ε) α) fun b bs => b = a ∧ bs = [] := by
  intro s b s'
  show Except.ok (a, s) = _ ↔ _
  constructor
  · intro h
    obtain ⟨rfl, rfl⟩ := Prod.mk.inj (Except.ok.inj h)
    exact ⟨[], Source.bytes s, rfl, (Source.put_bytes s).symm, rfl, rfl⟩
  · rintro ⟨front, rest, hbytes, rfl, rfl, rfl⟩
    rw [List.nil_append] at hbytes
    rw [← hbytes, Source.put_bytes]

theorem throw (e : ε) : Accepts (MonadExcept.throw e : StateT σ (Except ε) α) fun _ _ => False := by
  intro s a s'
  show Except.error e = _ ↔ _
  simp

/-- A check before a reader goes on. -/
theorem checked {c : Prop} [Decidable c] {e : ε} {r : Unit → StateT σ (Except ε) α} {G : α → Bytes → Prop}
    (h : Accepts (r ()) G) :
    Accepts (if c then MonadExcept.throw e >>= r else r ()) fun a bs => ¬ c ∧ G a bs := by
  by_cases hc : c
  · rw [if_pos hc]
    exact (throw e).congr fun a bs => by simp [hc]
  · rw [if_neg hc]
    exact h.congr fun a bs => by simp [hc]

/-- A step that takes a fixed number of bytes, if there are as many, accepts what they spell. -/
theorem of_width {r : StateT σ (Except ε) α} {G : α → Bytes → Prop} (n : Nat)
    (henough : ∀ s front rest, Source.bytes s = front ++ rest → front.length = n →
      ∃ a, G a front ∧ r s = .ok (a, Source.put s rest))
    (hshort : ∀ s, (Source.bytes s).length < n → ∃ e, r s = .error e)
    (hwidth : ∀ a bs, G a bs → bs.length = n) (hunique : ∀ a b bs, G a bs → G b bs → a = b) :
    Accepts r G := by
  intro s a s'
  constructor
  · intro h
    by_cases hlen : (Source.bytes s).length < n
    · obtain ⟨e, he⟩ := hshort s hlen
      rw [he] at h
      cases h
    · have hsplit := List.take_append_drop n (Source.bytes s)
      obtain ⟨b, hG, hb⟩ := henough s _ _ hsplit.symm (List.length_take_of_le (Nat.le_of_not_lt hlen))
      rw [hb] at h
      obtain ⟨rfl, rfl⟩ := Prod.mk.inj (Except.ok.inj h)
      exact ⟨_, _, hsplit.symm, rfl, hG⟩
  · rintro ⟨front, rest, hbytes, rfl, hG⟩
    obtain ⟨b, hb, h⟩ := henough s front rest hbytes (hwidth a front hG)
    rw [h, hunique a b front hG hb]

/-- One reader and then another: a spelling of the first and then one of the second. -/
theorem bind {r : StateT σ (Except ε) α} {f : α → StateT σ (Except ε) β} {G : α → Bytes → Prop}
    {H : α → β → Bytes → Prop} (hr : Accepts r G) (hf : ∀ a, Accepts (f a) (H a)) :
    Accepts (r >>= f) fun b bs => ∃ a x y, bs = x ++ y ∧ G a x ∧ H a b y := by
  intro s b s''
  rw [state_bind_eq_ok]
  constructor
  · rintro ⟨a, s', hra, hfb⟩
    obtain ⟨x, rest, hx, rfl, hG⟩ := (hr s a s').1 hra
    obtain ⟨y, rest', hy, rfl, hH⟩ := (hf a _ b s'').1 hfb
    rw [Source.bytes_put] at hy
    refine ⟨x ++ y, rest', ?_, Source.put_put s rest rest', a, x, y, rfl, hG, hH⟩
    rw [hx, hy, List.append_assoc]
  · rintro ⟨_, rest, hbytes, rfl, a, x, y, rfl, hG, hH⟩
    refine ⟨a, Source.put s (y ++ rest), (hr s a _).2 ⟨x, y ++ rest, ?_, rfl, hG⟩, ?_⟩
    · rw [hbytes, List.append_assoc]
    · refine (hf a _ b _).2 ⟨y, rest, Source.bytes_put s _, ?_, hH⟩
      rw [Source.put_put]

/-- A step repeated over a list: the values in turn, as many as the list is long. -/
theorem mapM {γ : Type} {f : γ → StateT σ (Except ε) α} {G : α → Bytes → Prop}
    (hf : ∀ c, Accepts (f c) G) (cs : List γ) :
    Accepts (cs.mapM f) fun as bs => as.length = cs.length ∧ Sequence G as bs := by
  induction cs with
  | nil =>
    rw [List.mapM_nil]
    refine (pure []).congr fun as bs => ?_
    constructor
    · rintro ⟨rfl, rfl⟩
      exact ⟨rfl, .nil⟩
    · rintro ⟨hlen, h⟩
      cases h with
      | nil => exact ⟨rfl, rfl⟩
      | cons _ _ => cases hlen
  | cons c cs ih =>
    rw [List.mapM_cons]
    refine ((hf c).bind fun a => ih.bind fun as => pure (a :: as)).congr fun as bs => ?_
    constructor
    · rintro ⟨a, x, _, rfl, hG, as, y, _, rfl, ⟨hlen, hs⟩, rfl, rfl⟩
      rw [List.append_nil]
      exact ⟨congrArg (· + 1) hlen, .cons hG hs⟩
    · rintro ⟨hlen, h⟩
      cases h with
      | nil => cases hlen
      | @cons a x as y hG hs =>
        refine ⟨a, x, y, rfl, hG, as, y, [], ?_, ⟨Nat.succ.inj hlen, hs⟩, rfl, rfl⟩
        rw [List.append_nil]

/-- Failures may be told in other words. -/
theorem within {r : Reader α} {G : α → Bytes → Prop} (h : Accepts r G) (place : Place) :
    Accepts (FileReader.within place r) G := by
  intro s a s'
  rw [← h s a s']
  unfold FileReader.within
  cases r s <;> simp [Except.mapError]

end Accepts

end ClassAtlas.ClassFile
