import Mathlib.Algebra.Group.Nat.Defs
import Mathlib.Tactic.Common
import TransactionEngine.Stack

/-!
# Work in a frame

What the operations of the stack leave as it was: the marker of the frame, the slots below it
and the least room. `Keeps` is reflexive and transitive and holds for every operation, so it
holds for whatever is put together from them. Dropping a frame that was worked in gives the
stack on which it was started, up to room.
-/

namespace TransactionEngine.Stack

/-- The room is the least room, doubled some number of times. -/
def Sized (s : Stack) : Prop :=
  0 < s.minCapacity ∧ ∃ k, s.capacity = s.minCapacity * 2 ^ k

lemma doubled_eq (needed capacity : Nat) : ∃ k, doubled needed capacity = capacity * 2 ^ k := by
  fun_induction doubled needed capacity with
  | case1 capacity h ih =>
    obtain ⟨k, hk⟩ := ih
    refine ⟨k + 1, ?_⟩
    rw [hk, Nat.pow_succ, Nat.mul_assoc, Nat.mul_comm 2]
  | case2 capacity h =>
    refine ⟨0, ?_⟩
    rw [Nat.pow_zero, Nat.mul_one]

/-- Halving goes through the doublings of the least room and stops at the first that is not four
times too large. -/
theorem halved_doubling {least : Nat} (hl : 0 < least) (top k : Nat) :
    ∃ j, halved least top (least * 2 ^ k) = least * 2 ^ j ∧ (j = 0 ∨ least * 2 ^ j < 4 * top) := by
  induction k with
  | zero =>
    refine ⟨0, ?_, .inl rfl⟩
    rw [halved, dif_neg]
    omega
  | succ k ih =>
    have hhalf : least * 2 ^ (k + 1) / 2 = least * 2 ^ k := by
      rw [Nat.pow_succ, ← Nat.mul_assoc, Nat.mul_div_cancel _ (by omega)]
    have hle : least ≤ least * 2 ^ k := Nat.le_mul_of_pos_right _ (Nat.two_pow_pos k)
    by_cases ht : top ≤ least * 2 ^ (k + 1) / 4
    · rw [halved, dif_pos (by omega), hhalf]
      exact ih
    · refine ⟨k + 1, ?_, .inr (by omega)⟩
      rw [halved, dif_neg]
      omega

lemma halved_nothing {least : Nat} (hl : 0 < least) (k : Nat) :
    halved least 0 (least * 2 ^ k) = least := by
  obtain ⟨j, hj, h⟩ := halved_doubling hl 0 k
  have hz : j = 0 := by omega
  rw [hj, hz, Nat.pow_zero, Nat.mul_one]

lemma sized_ofCapacity (n : Nat) : (ofCapacity n).Sized := by
  have hle : leastCapacity ≤ max n leastCapacity := Nat.le_max_right n leastCapacity
  have h : 0 < max n leastCapacity := Nat.lt_of_lt_of_le (by decide) hle
  exact ⟨h, 0, (Nat.mul_one _).symm⟩

lemma reserve_ok {s t : Stack} {needed : Nat} (h : s.reserve needed = .ok t) :
    ∃ k, t = { s with capacity := s.capacity * 2 ^ k } := by
  unfold reserve at h
  by_cases hn : needed ≤ s.capacity
  · rw [if_pos hn] at h
    cases h
    exact ⟨0, by rw [Nat.pow_zero, Nat.mul_one]⟩
  · rw [if_neg hn] at h
    obtain ⟨k, hk⟩ := doubled_eq needed s.capacity
    by_cases hg : doubled needed s.capacity ≤ greatestCapacity
    · simp only [hg, if_true] at h
      cases h
      exact ⟨k, by rw [hk]⟩
    · simp only [hg, if_false] at h
      cases h

lemma pushValues_ok {s t : Stack} {values : List Value} (h : s.pushValues values = .ok t) :
    ∃ k, t = { s with slots := s.slots ++ values, capacity := s.capacity * 2 ^ k } := by
  unfold pushValues at h
  cases hr : s.reserve (s.top + values.length) with
  | error e =>
    rw [hr] at h
    cases h
  | ok u =>
    rw [hr] at h
    obtain ⟨k, rfl⟩ := reserve_ok hr
    cases h
    exact ⟨k, rfl⟩

lemma push_eq_pushValues (s : Stack) (n : Nat) :
    s.push n = s.pushValues (List.replicate n .nil) := by
  unfold push pushValues
  rw [List.length_replicate]

lemma pop_ok {s t : Stack} {n : Nat} (h : s.pop n = .ok t) :
    n ≤ s.frameLength ∧ t = shrink { s with slots := s.slots.take (s.top - n) } := by
  unfold pop at h
  by_cases hn : s.frameLength < n
  · rw [if_pos hn] at h
    cases h
  · rw [if_neg hn] at h
    cases h
    exact ⟨Nat.le_of_not_lt hn, rfl⟩

/-! ### What work in a frame leaves as it was -/

/-- The frame starts no higher than the top. -/
def Framed (s : Stack) : Prop :=
  s.frame ≤ s.top

/-- The stack `t` can have come from `s` by work in the frame of `s`. -/
structure Keeps (s t : Stack) : Prop where
  frame : t.frame = s.frame
  least : t.minCapacity = s.minCapacity
  below : t.slots.take s.frame = s.slots.take s.frame
  sized : s.Sized → t.Sized

namespace Keeps

variable {s t u : Stack}

theorem refl (s : Stack) : s.Keeps s :=
  ⟨rfl, rfl, rfl, id⟩

theorem trans (h : s.Keeps t) (h' : t.Keeps u) : s.Keeps u where
  frame := h'.frame.trans h.frame
  least := h'.least.trans h.least
  below := by
    have hb := h'.below
    rw [h.frame] at hb
    exact hb.trans h.below
  sized hs := h'.sized (h.sized hs)

theorem framed (h : s.Keeps t) (hs : s.Framed) : t.Framed := by
  have hl := congrArg List.length h.below
  simp only [List.length_take] at hl
  unfold Framed top at hs ⊢
  rw [h.frame]
  omega

theorem pushValues (hs : s.Framed) {values : List Value} (h : s.pushValues values = .ok t) :
    s.Keeps t := by
  obtain ⟨k, rfl⟩ := pushValues_ok h
  refine ⟨rfl, rfl, List.take_append_of_le_length hs, ?_⟩
  rintro ⟨hl, j, hj⟩
  exact ⟨hl, j + k, by simp only [hj, Nat.pow_add, Nat.mul_assoc]⟩

theorem pop {n : Nat} (hs : s.Framed) (h : s.pop n = .ok t) : s.Keeps t := by
  obtain ⟨hn, rfl⟩ := pop_ok h
  have hle : s.frame ≤ s.top - n := by
    unfold Framed frameLength at *
    omega
  refine ⟨rfl, rfl, ?_, ?_⟩
  · change (s.slots.take (s.top - n)).take s.frame = _
    rw [List.take_take, Nat.min_eq_left hle]
  · rintro ⟨hl, k, hk⟩
    obtain ⟨j, hj, -⟩ := halved_doubling hl (s.slots.take (s.top - n)).length k
    refine ⟨hl, j, ?_⟩
    change halved s.minCapacity (s.slots.take (s.top - n)).length s.capacity = _
    rw [hk, hj]
    rfl

theorem set {index : Nat} (hi : s.frame ≤ index) (v : Value) : s.Keeps (s.set index v) :=
  ⟨rfl, rfl, List.take_set_of_le hi, id⟩

theorem overwriteFrom {start : Nat} (hs : s.Framed) (hi : s.frame ≤ start)
    (values : List Value) : s.Keeps (s.overwriteFrom start values) := by
  refine ⟨rfl, rfl, ?_, id⟩
  have hl : s.frame ≤ (s.slots.take start).length := by
    rw [List.length_take]
    exact Nat.le_min.2 ⟨hi, hs⟩
  change (s.slots.take start ++ values ++ s.slots.drop (start + values.length)).take s.frame = _
  rw [List.append_assoc, List.take_append_of_le_length hl, List.take_take, Nat.min_eq_left hi]

end Keeps

lemma framed_startFrame (s : Stack) : s.startFrame.2.Framed :=
  Nat.le_refl s.top

/-- Dropping a frame that was worked in leaves the stack as it was before the frame was started,
but for its room, which fits the slots again. -/
theorem restoreFrame_of_keeps {s t : Stack} (hs : s.Framed) (h : s.startFrame.2.Keeps t) :
    t.restoreFrame s.frame =
      .ok { s with capacity := halved s.minCapacity s.top t.capacity } := by
  have hf : t.frame = s.top := h.frame
  have hb : t.slots.take s.top = s.slots := by
    have hb := h.below
    change t.slots.take s.top = s.slots.take s.slots.length at hb
    rwa [List.take_length] at hb
  have ht : t.frame ≤ t.top := h.framed (framed_startFrame s)
  have hd : t.top - t.frameLength = s.top := by
    unfold frameLength
    omega
  unfold Framed at hs
  unfold restoreFrame
  rw [if_neg (by omega)]
  unfold Stack.pop
  rw [if_neg (Nat.lt_irrefl _), hd, hb]
  have hl : t.minCapacity = s.minCapacity := h.least
  simp only [shrink, hl]
  rfl

/-- So nothing is lost to the frames below. -/
lemma Keeps.fitted {s t : Stack} (h : s.startFrame.2.Keeps t) :
    s.Keeps { s with capacity := halved s.minCapacity s.top t.capacity } := by
  refine ⟨rfl, rfl, rfl, ?_⟩
  intro hs
  obtain ⟨hl, k, hk⟩ := h.sized hs
  have hm : t.minCapacity = s.minCapacity := h.least
  rw [hm] at hl hk
  obtain ⟨j, hj, -⟩ := halved_doubling hl s.top k
  exact ⟨hl, j, by rw [hk]; exact hj⟩

end TransactionEngine.Stack
