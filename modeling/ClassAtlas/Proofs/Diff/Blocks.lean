import ClassAtlas.Diff.Blocks
import Mathlib.Data.List.Basic

/-! The blocks of two sequences are common parts of both, in order.

However a block was found, and whatever lines were left out as popular, its lines are the same in
both sequences and it lies in the window it was looked for in (`longestBlock_within`). The blocks of a
window follow each other in both sequences (`blocks_chain`). That they are the longest is not used by
what is made of them. -/
namespace ClassAtlas.Diff

variable {as bs : List String} {i j k m n : Nat} {w : Window}

/-! ### Common lines -/

/-- The `n` lines from `i` on in the first sequence are those from `j` on in the second. -/
def Agree (as bs : List String) (i j n : Nat) : Prop :=
  ∀ k < n, ∃ line, as[i + k]? = some line ∧ bs[j + k]? = some line

theorem Agree.zero : Agree as bs i j 0 := fun _ hk => absurd hk (Nat.not_lt_zero _)

theorem Agree.append (h : Agree as bs i j m) (h' : Agree as bs (i + m) (j + m) n) : Agree as bs i j (m + n) := by
  intro k hk
  by_cases hkm : k < m
  · exact h k hkm
  · obtain ⟨line, ha, hb⟩ := h' (k - m) (by omega)
    exact ⟨line, by rw [← ha]; congr 1; omega, by rw [← hb]; congr 1; omega⟩

theorem agree_one (h : ∃ line, as[i]? = some line ∧ bs[j]? = some line) : Agree as bs i j 1 := by
  intro k hk
  obtain rfl : k = 0 := by omega
  exact h

/-- Part of agreeing lines agree. -/
theorem Agree.sub (h : Agree as bs i j n) (hk : k + m ≤ n) : Agree as bs (i + k) (j + k) m := by
  intro l hl
  rw [Nat.add_assoc, Nat.add_assoc]
  exact h (k + l) (by omega)

theorem Agree.take (h : Agree as bs i j n) (hm : m ≤ n) : Agree as bs i j m :=
  fun k hk => h k (Nat.lt_of_lt_of_le hk hm)

theorem mem_placesFrom {line : String} {start : Nat} :
    j ∈ placesFrom line start bs ↔ start ≤ j ∧ bs[j - start]? = some line := by
  induction bs generalizing start with
  | nil => simp [placesFrom]
  | cons l rest ih =>
    have hlater : j ∈ placesFrom line (start + 1) rest ↔ start + 1 ≤ j ∧ (l :: rest)[j - start]? = some line := by
      rw [ih]
      refine and_congr_right fun hle => ?_
      rw [show j - start = j - (start + 1) + 1 by omega, List.getElem?_cons_succ]
    have hfirst : start ≤ j ↔ j = start ∨ start + 1 ≤ j := by omega
    unfold placesFrom
    split
    · rename_i hl
      rw [List.mem_cons, hlater, hfirst, or_and_right]
      exact or_congr_left (iff_self_and.2 fun h => by rw [h, Nat.sub_self, hl]; rfl)
    · rename_i hl
      have hnot : ¬(j = start ∧ (l :: rest)[j - start]? = some line) := by
        rintro ⟨rfl, hline⟩
        rw [Nat.sub_self] at hline
        exact hl (Option.some.inj hline)
      rw [hlater, hfirst, or_and_right, or_iff_right hnot]

/-- A block may go through two places when the same line stands there and is not popular. -/
theorem mem_seeds : j ∈ (Sequences.of as bs).seeds.getD i [] ↔
    ∃ line, as[i]? = some line ∧ bs[j]? = some line ∧ isPopular bs line = false := by
  unfold Sequences.of
  cases ha : as[i]? with
  | none => simp [ha]
  | some line =>
    have hmem : j ∈ (if isPopular bs line then [] else placesFrom line 0 bs) ↔
        bs[j]? = some line ∧ isPopular bs line = false := by
      cases isPopular bs line <;> simp [mem_placesFrom]
    simpa [ha] using hmem

theorem agree_of_mem_seeds (h : j ∈ (Sequences.of as bs).seeds.getD i []) : Agree as bs i j 1 := by
  obtain ⟨line, ha, hb, -⟩ := mem_seeds.1 h
  exact agree_one ⟨line, ha, hb⟩

theorem agree_of_sameLine (h : sameLine (Sequences.of as bs) i j = true) : Agree as bs i j 1 := by
  refine agree_one ?_
  unfold sameLine Sequences.of at h
  cases ha : as[i]? <;> cases hb : bs[j]? <;> simp_all

/-! ### One block -/

/-- A block of agreeing lines inside a window. -/
structure Block.Within (as bs : List String) (w : Window) (m : Block) : Prop where
  aLo : w.aLo ≤ m.a
  aHi : m.a + m.size ≤ w.aHi
  bLo : w.bLo ≤ m.b
  bHi : m.b + m.size ≤ w.bHi
  agree : Agree as bs m.a m.b m.size

/-- What a row says of the lines before line `i`: the block of a length that ends there and at a place. -/
def Row.Sound (as bs : List String) (w : Window) (i : Nat) (r : Row) : Prop :=
  ∀ j k, (j, k) ∈ r → ∃ a b, a + k = i ∧ b + k = j + 1 ∧ Block.Within as bs w ⟨a, b, k⟩

theorem Row.mem_of_at {r : Row} (h : r.at j = k + 1) : (j, k + 1) ∈ r := by
  unfold Row.at at h
  cases hfound : r.lookup j with
  | none => simp [hfound] at h
  | some l =>
    obtain rfl : l = k + 1 := by simpa [hfound] using h
    obtain ⟨before, after, heq, -⟩ := List.lookup_eq_some_iff.1 hfound
    rw [heq]
    exact List.mem_append_right before List.mem_cons_self

/-- The row of line `i` from that of the line before. -/
def rowAt (as bs : List String) (w : Window) (i : Nat) (before : Row) : Row :=
  nextRow before (((Sequences.of as bs).seeds.getD i []).filter fun j => w.bLo ≤ j && j < w.bHi)

theorem seedBlock_succ (as bs : List String) (w : Window) (n i : Nat) (before : Row) (best : Block) :
    seedBlock (Sequences.of as bs) w (n + 1) i before best =
      seedBlock (Sequences.of as bs) w n (i + 1) (rowAt as bs w i before)
        (better i best (rowAt as bs w i before)) := rfl

theorem rowAt_sound {before : Row} (hbefore : before.Sound as bs w i) (hi : w.aLo ≤ i) (hi' : i < w.aHi) :
    (rowAt as bs w i before).Sound as bs w (i + 1) := by
  intro j k hmem
  obtain ⟨j', hj', heq⟩ := List.mem_map.1 hmem
  obtain ⟨rfl, rfl⟩ := Prod.mk.inj heq
  obtain ⟨hseed, hwindow⟩ := List.mem_filter.1 hj'
  obtain ⟨hlo, hhi⟩ := Bool.and_eq_true_iff.1 hwindow
  have hline := agree_of_mem_seeds hseed
  rcases hlength : (if j' = 0 then 0 else before.at (j' - 1)) with _ | l
  · exact ⟨i, j', rfl, rfl, hi, hi', of_decide_eq_true hlo, of_decide_eq_true hhi, hline⟩
  · -- The block that ends one line and one place before goes on.
    have hj : j' ≠ 0 := fun h => by simp [h] at hlength
    obtain ⟨a, b, ha, hb, hwithin⟩ := hbefore (j' - 1) (l + 1) (Row.mem_of_at (by rwa [if_neg hj] at hlength))
    have hb' : b + (l + 1) = j' := by omega
    refine ⟨a, b, by omega, by omega, hwithin.aLo, ?_, hwithin.bLo, ?_, hwithin.agree.append ?_⟩
    · show a + (l + 1 + 1) ≤ w.aHi
      omega
    · show b + (l + 1 + 1) ≤ w.bHi
      have hlt := of_decide_eq_true hhi
      omega
    · show Agree as bs (a + (l + 1)) (b + (l + 1)) 1
      rwa [ha, hb']

theorem better_within {row : Row} {best : Block} (hbest : best.Within as bs w) (hrow : row.Sound as bs w (i + 1)) :
    (better i best row).Within as bs w := by
  unfold better
  induction row generalizing best with
  | nil => exact hbest
  | cons p row ih =>
    obtain ⟨j, k⟩ := p
    refine ih ?_ fun j k hmem => hrow j k (List.mem_cons_of_mem _ hmem)
    show (if best.size < k then (⟨i + 1 - k, j + 1 - k, k⟩ : Block) else best).Within as bs w
    split
    · obtain ⟨a, b, ha, hb, hwithin⟩ := hrow j k List.mem_cons_self
      rwa [show i + 1 - k = a by omega, show j + 1 - k = b by omega]
    · exact hbest

theorem seedBlock_within {before : Row} {best : Block} (hlo : w.aLo ≤ i) (hhi : i + n ≤ w.aHi)
    (hbefore : before.Sound as bs w i) (hbest : best.Within as bs w) :
    (seedBlock (Sequences.of as bs) w n i before best).Within as bs w := by
  induction n generalizing i before best with
  | zero => exact hbest
  | succ n ih =>
    rw [seedBlock_succ]
    have hrow := rowAt_sound hbefore hlo (by omega)
    exact ih (by omega) (by omega) hrow (better_within hbest hrow)

theorem extendBack_within {b : Block} (h : b.Within as bs w) :
    (extendBack (Sequences.of as bs) w n b).Within as bs w := by
  induction n generalizing b with
  | zero => exact h
  | succ n ih =>
    unfold extendBack
    split
    · rename_i hmore
      simp only [Bool.and_eq_true, decide_eq_true_eq] at hmore
      obtain ⟨⟨ha, hb⟩, hline⟩ := hmore
      have haHi := h.aHi
      have hbHi := h.bHi
      have hfirst := agree_of_sameLine hline
      refine ih ⟨by show w.aLo ≤ b.a - 1; omega, by show b.a - 1 + (b.size + 1) ≤ w.aHi; omega,
        by show w.bLo ≤ b.b - 1; omega, by show b.b - 1 + (b.size + 1) ≤ w.bHi; omega, ?_⟩
      show Agree as bs (b.a - 1) (b.b - 1) (b.size + 1)
      rw [Nat.add_comm b.size 1]
      refine hfirst.append ?_
      rw [Nat.sub_add_cancel (by omega), Nat.sub_add_cancel (by omega)]
      exact h.agree
    · exact h

theorem extendOn_within {b : Block} (h : b.Within as bs w) :
    (extendOn (Sequences.of as bs) w n b).Within as bs w := by
  induction n generalizing b with
  | zero => exact h
  | succ n ih =>
    unfold extendOn
    split
    · rename_i hmore
      simp only [Bool.and_eq_true, decide_eq_true_eq] at hmore
      obtain ⟨⟨ha, hb⟩, hline⟩ := hmore
      exact ih ⟨h.aLo, ha, h.bLo, hb, h.agree.append (agree_of_sameLine hline)⟩
    · exact h

theorem longestBlock_within (ha : w.aLo ≤ w.aHi) (hb : w.bLo ≤ w.bHi) :
    (longestBlock (Sequences.of as bs) w).Within as bs w := by
  have hnone : Block.Within as bs w ⟨w.aLo, w.bLo, 0⟩ := ⟨Nat.le_refl _, ha, Nat.le_refl _, hb, .zero⟩
  have hseed := seedBlock_within (n := w.aHi - w.aLo) (Nat.le_refl w.aLo) (by omega)
    (fun _ _ hmem => absurd hmem List.not_mem_nil) hnone
  exact extendOn_within (extendBack_within hseed)

/-! ### The longest block -/

/-- A block of common lines inside a window that goes through places in the index only. -/
structure Block.Indexed (as bs : List String) (w : Window) (m : Block) : Prop where
  within : m.Within as bs w
  seeds : ∀ k < m.size, m.b + k ∈ (Sequences.of as bs).seeds.getD (m.a + k) []

/-- A row knows at least the length of every indexed block that ends with the line before line `i`. -/
def Row.Complete (as bs : List String) (w : Window) (i : Nat) (r : Row) : Prop :=
  ∀ m : Block, m.Indexed as bs w → m.a + m.size = i → ∀ j, m.b + m.size = j + 1 → m.size ≤ r.at j

theorem Row.at_map {js : List Nat} (f : Nat → Nat) (h : j ∈ js) : Row.at (js.map fun j => (j, f j)) j = f j := by
  unfold Row.at
  induction js with
  | nil => cases h
  | cons j' js ih =>
    rw [List.map_cons, List.lookup_cons]
    by_cases heq : j = j'
    · simp [heq]
    · rw [beq_false_of_ne heq]
      exact ih ((List.mem_cons.1 h).resolve_left heq)

/-- The block without its last line. -/
theorem Block.Indexed.init {a b : Nat} (h : Block.Indexed as bs w ⟨a, b, k + 1⟩) : Block.Indexed as bs w ⟨a, b, k⟩ :=
  ⟨⟨h.within.aLo, Nat.le_of_succ_le h.within.aHi, h.within.bLo, Nat.le_of_succ_le h.within.bHi,
    h.within.agree.take (Nat.le_succ k)⟩, fun l hl => h.seeds l (Nat.lt_succ_of_lt hl)⟩

theorem rowAt_complete {before : Row} (hbefore : before.Complete as bs w i) :
    (rowAt as bs w i before).Complete as bs w (i + 1) := by
  rintro ⟨a, b, size⟩ hm ha j hb
  cases size with
  | zero => exact Nat.zero_le _
  | succ k =>
    have hi : a + k = i := Nat.succ.inj ha
    have hj : b + k = j := Nat.succ.inj hb
    subst hi hj
    have hlo : w.bLo ≤ b := hm.within.bLo
    have hhi : b + (k + 1) ≤ w.bHi := hm.within.bHi
    have hwindow : (decide (w.bLo ≤ b + k) && decide (b + k < w.bHi)) = true := by
      rw [decide_eq_true (by omega : w.bLo ≤ b + k), decide_eq_true (by omega : b + k < w.bHi)]
      rfl
    have hseed : b + k ∈ (Sequences.of as bs).seeds.getD (a + k) [] := hm.seeds k (Nat.lt_succ_self k)
    rw [rowAt, nextRow, Row.at_map _ (List.mem_filter.2 ⟨hseed, hwindow⟩)]
    refine Nat.succ_le_succ ?_
    split
    · show k ≤ 0
      omega
    · exact hbefore _ hm.init rfl (b + k - 1) (by show b + k = b + k - 1 + 1; omega)

theorem le_better (i : Nat) (row : Row) (best : Block) :
    best.size ≤ (better i best row).size ∧ ∀ j k, (j, k) ∈ row → k ≤ (better i best row).size := by
  unfold better
  induction row generalizing best with
  | nil => exact ⟨Nat.le_refl _, fun _ _ h => nomatch h⟩
  | cons p row ih =>
    obtain ⟨hbest, hrow⟩ := ih (if best.size < p.2 then ⟨i + 1 - p.2, p.1 + 1 - p.2, p.2⟩ else best)
    have hstep : best.size ≤ (if best.size < p.2 then (⟨i + 1 - p.2, p.1 + 1 - p.2, p.2⟩ : Block) else best).size ∧
        p.2 ≤ (if best.size < p.2 then (⟨i + 1 - p.2, p.1 + 1 - p.2, p.2⟩ : Block) else best).size := by
      split
      · rename_i hlt
        exact ⟨Nat.le_of_lt hlt, Nat.le_refl _⟩
      · rename_i hle
        exact ⟨Nat.le_refl _, Nat.le_of_not_lt hle⟩
    refine ⟨Nat.le_trans hstep.1 hbest, fun j k hmem => ?_⟩
    rcases List.mem_cons.1 hmem with rfl | hmem
    · exact Nat.le_trans hstep.2 hbest
    · exact hrow j k hmem

theorem seedBlock_longest {before : Row} {best m : Block} (hbefore : before.Complete as bs w i)
    (hbest : ∀ m : Block, m.Indexed as bs w → m.a + m.size ≤ i → m.size ≤ best.size) (hm : m.Indexed as bs w)
    (hend : m.a + m.size ≤ i + n) : m.size ≤ (seedBlock (Sequences.of as bs) w n i before best).size := by
  induction n generalizing i before best with
  | zero => exact hbest m hm hend
  | succ n ih =>
    rw [seedBlock_succ]
    refine ih (rowAt_complete hbefore) (fun m hm hend => ?_) (by omega)
    obtain ⟨hle, hrow⟩ := le_better i (rowAt as bs w i before) best
    rcases Nat.lt_or_eq_of_le hend with hearlier | hnow
    · exact Nat.le_trans (hbest m hm (by omega)) hle
    · -- A block that ends here is known to the row, and so to the best one.
      rcases hsize : m.size with _ | k
      · exact Nat.zero_le _
      · rw [← hsize]
        refine Nat.le_trans (rowAt_complete hbefore m hm hnow (m.b + k) (by omega)) ?_
        rcases hat : (rowAt as bs w i before).at (m.b + k) with _ | l
        · exact Nat.zero_le _
        · exact hrow _ _ (Row.mem_of_at hat)

theorem le_extendBack (s : Sequences) (w : Window) (n : Nat) (b : Block) : b.size ≤ (extendBack s w n b).size := by
  induction n generalizing b with
  | zero => exact Nat.le_refl _
  | succ n ih =>
    unfold extendBack
    split
    · exact Nat.le_of_succ_le (ih ⟨b.a - 1, b.b - 1, b.size + 1⟩)
    · exact Nat.le_refl _

theorem le_extendOn (s : Sequences) (w : Window) (n : Nat) (b : Block) : b.size ≤ (extendOn s w n b).size := by
  induction n generalizing b with
  | zero => exact Nat.le_refl _
  | succ n ih =>
    unfold extendOn
    split
    · exact Nat.le_of_succ_le (ih ⟨b.a, b.b, b.size + 1⟩)
    · exact Nat.le_refl _

/-- **No block without popular lines is longer than the longest block.** -/
theorem longestBlock_longest {m : Block} (hm : m.Within as bs w)
    (hunpopular : ∀ k < m.size, ∀ line, bs[m.b + k]? = some line → isPopular bs line = false) :
    m.size ≤ (longestBlock (Sequences.of as bs) w).size := by
  have hindexed : m.Indexed as bs w := by
    refine ⟨hm, fun k hk => ?_⟩
    obtain ⟨line, ha, hb⟩ := hm.agree k hk
    exact mem_seeds.2 ⟨line, ha, hb, hunpopular k hk line hb⟩
  have haLo := hm.aLo
  have haHi := hm.aHi
  refine Nat.le_trans (seedBlock_longest ?_ ?_ hindexed (i := w.aLo) (n := w.aHi - w.aLo) (by omega))
    (Nat.le_trans (le_extendBack _ _ _ _) (le_extendOn _ _ _ _))
  · intro m hm hend j _
    have := hm.within.aLo
    omega
  · intro m hm hend
    have := hm.within.aLo
    show m.size ≤ 0
    omega

/-! ### All blocks -/

/-- Blocks of agreeing lines that follow each other in both sequences, from the places `i` and `j` on
and up to the ends. -/
inductive Chain (as bs : List String) (aEnd bEnd : Nat) : Nat → Nat → List Block → Prop
  | nil {i j : Nat} (ha : i ≤ aEnd) (hb : j ≤ bEnd) : Chain as bs aEnd bEnd i j []
  | cons {i j : Nat} {m : Block} {rest : List Block} (ha : i ≤ m.a) (hb : j ≤ m.b) (h : Agree as bs m.a m.b m.size)
      (hrest : Chain as bs aEnd bEnd (m.a + m.size) (m.b + m.size) rest) : Chain as bs aEnd bEnd i j (m :: rest)

section
variable {aEnd bEnd i' j' : Nat} {ms ms' : List Block}

theorem Chain.mono (h : Chain as bs aEnd bEnd i' j' ms) (hi : i ≤ i') (hj : j ≤ j') : Chain as bs aEnd bEnd i j ms := by
  cases h with
  | nil ha hb => exact .nil (Nat.le_trans hi ha) (Nat.le_trans hj hb)
  | cons ha hb h hrest => exact .cons (Nat.le_trans hi ha) (Nat.le_trans hj hb) h hrest

theorem Chain.append (h : Chain as bs i' j' i j ms) (h' : Chain as bs aEnd bEnd i' j' ms') :
    Chain as bs aEnd bEnd i j (ms ++ ms') := by
  induction h with
  | nil ha hb => exact h'.mono ha hb
  | cons ha hb h _ ih => exact .cons ha hb h ih

theorem blocksIn_chain (fuel : Nat) (ha : w.aLo ≤ w.aHi) (hb : w.bLo ≤ w.bHi) :
    Chain as bs w.aHi w.bHi w.aLo w.bLo (blocksIn (Sequences.of as bs) fuel w) := by
  induction fuel generalizing w with
  | zero => exact .nil ha hb
  | succ fuel ih =>
    have hlongest : (longestBlock (Sequences.of as bs) w).Within as bs w := longestBlock_within ha hb
    unfold blocksIn
    generalize longestBlock (Sequences.of as bs) w = m at hlongest
    obtain ⟨haLo, haHi, hbLo, hbHi, hagree⟩ := hlongest
    dsimp only
    split
    · exact .nil ha hb
    · have hbefore : Chain as bs m.a m.b w.aLo w.bLo (if w.aLo < m.a && w.bLo < m.b then
          blocksIn (Sequences.of as bs) fuel ⟨w.aLo, m.a, w.bLo, m.b⟩ else []) := by
        split
        · exact ih (w := ⟨w.aLo, m.a, w.bLo, m.b⟩) haLo hbLo
        · exact .nil haLo hbLo
      refine hbefore.append (.cons (Nat.le_refl _) (Nat.le_refl _) hagree ?_)
      split
      · exact ih (w := ⟨m.a + m.size, w.aHi, m.b + m.size, w.bHi⟩) haHi hbHi
      · exact .nil haHi hbHi

theorem joinBlocks_chain (h : Chain as bs aEnd bEnd i j ms) : Chain as bs aEnd bEnd i j (joinBlocks ms) := by
  induction ms using joinBlocks.induct generalizing i j with
  | case1 => simpa [joinBlocks] using h
  | case2 m => simpa [joinBlocks] using h
  | case3 m n rest htouch ih =>
    rw [joinBlocks, if_pos htouch]
    obtain ⟨_, _⟩ | ⟨ha, hb, hm, _ | ⟨_, _, hn, hrest⟩⟩ := h
    rw [← htouch.1, ← htouch.2] at hn hrest
    rw [Nat.add_assoc, Nat.add_assoc] at hrest
    exact ih (.cons ha hb (hm.append hn) hrest)
  | case4 m n rest hapart ih =>
    rw [joinBlocks, if_neg hapart]
    obtain ⟨_, _⟩ | ⟨ha, hb, hm, hrest⟩ := h
    exact .cons ha hb hm (ih hrest)

end

theorem blocksIn_pos {s : Sequences} {fuel : Nat} {m : Block} (h : m ∈ blocksIn s fuel w) : 0 < m.size := by
  induction fuel generalizing w with
  | zero => cases h
  | succ fuel ih =>
    unfold blocksIn at h
    dsimp only at h
    split at h
    · cases h
    · rename_i hsize
      have hpart {c : Bool} {w : Window} (h : m ∈ if c then blocksIn s fuel w else []) : 0 < m.size := by
        split at h
        · exact ih h
        · cases h
      rcases List.mem_append.1 h with hbefore | hrest
      · exact hpart hbefore
      · rcases List.mem_cons.1 hrest with rfl | hafter
        · exact Nat.pos_of_ne_zero hsize
        · exact hpart hafter

theorem joinBlocks_pos {ms : List Block} (h : ∀ m ∈ ms, 0 < m.size) : ∀ m ∈ joinBlocks ms, 0 < m.size := by
  induction ms using joinBlocks.induct with
  | case1 => simp [joinBlocks]
  | case2 m => simpa [joinBlocks] using h
  | case3 m n rest htouch ih =>
    rw [joinBlocks, if_pos htouch]
    obtain ⟨hm, hrest⟩ := List.forall_mem_cons.1 h
    exact ih (List.forall_mem_cons.2 ⟨Nat.add_pos_left hm n.size, (List.forall_mem_cons.1 hrest).2⟩)
  | case4 m n rest hapart ih =>
    rw [joinBlocks, if_neg hapart]
    obtain ⟨hm, hrest⟩ := List.forall_mem_cons.1 h
    exact List.forall_mem_cons.2 ⟨hm, ih hrest⟩

/-- No block is empty. -/
theorem blocks_pos (as bs : List String) : ∀ m ∈ blocks as bs, 0 < m.size :=
  joinBlocks_pos fun _ => blocksIn_pos

/-- The blocks of two sequences are common parts of both, in order. -/
theorem blocks_chain (as bs : List String) : Chain as bs as.length bs.length 0 0 (blocks as bs) :=
  joinBlocks_chain (blocksIn_chain (w := ⟨0, as.length, 0, bs.length⟩) (as.length + 1) (Nat.zero_le _) (Nat.zero_le _))

end ClassAtlas.Diff
