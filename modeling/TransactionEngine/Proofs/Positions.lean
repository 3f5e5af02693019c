import Mathlib.Tactic.Common
import TransactionEngine.Proofs.Moves

/-!
# Positions of the stack

A position counts from the bottom of the stack, or from the top if it is negative, so that every
slot has two of them. A position can be read exactly if its slot is one of the frame, and a value
that is stored there is seen at both positions of the slot and at no other.
-/

namespace TransactionEngine

/-- Lists in memory are no longer than this, so that each place of a list is an `Int64`. -/
def greatestLength : Nat :=
  2 ^ 63 - 1

namespace Stack

/-- The place that a position stands for, be there a slot or not. -/
def place (s : Stack) (position : Int64) : Int :=
  if 0 ≤ position.toInt then position.toInt else s.top + position.toInt

/-- The slot that a position stands for, found without a number below zero: the distance from the
top is taken off the top if it is not greater. -/
def indexInWord (s : Stack) (position : Int64) : Except Error Nat :=
  let index :=
    if 0 ≤ position.toInt then
      if position.toInt.toNat < s.top then some position.toInt.toNat else none
    else
      let back := position.toInt.natAbs
      if back ≤ s.top then some (s.top - back) else none
  match index with
  | some index => .ok index
  | none => .error (.outsideStack position s.top)

variable {s : Stack} {position : Int64} {index : Nat}

lemma indexOf_eq (s : Stack) (position : Int64) :
    s.indexOf position =
      if 0 ≤ s.place position ∧ s.place position < s.top then .ok (s.place position).toNat
      else .error (.outsideStack position s.top) :=
  rfl

lemma indexOf_eq_ok_iff :
    s.indexOf position = .ok index ↔ (index : Int) = s.place position ∧ index < s.top := by
  rw [indexOf_eq]
  by_cases h : 0 ≤ s.place position ∧ s.place position < s.top
  · rw [if_pos h, Except.ok.injEq]
    omega
  · rw [if_neg h]
    refine iff_of_false (by simp) ?_
    rintro ⟨hi, ht⟩
    omega

lemma indexInWord_eq (s : Stack) (position : Int64) :
    s.indexInWord position = s.indexOf position := by
  rw [indexOf_eq]
  unfold indexInWord place
  by_cases hp : 0 ≤ position.toInt
  · simp only [if_pos hp]
    by_cases ht : position.toInt.toNat < s.top
    · rw [if_pos ht, if_pos (by omega)]
    · rw [if_neg ht, if_neg (by omega)]
  · simp only [if_neg hp]
    by_cases hb : position.toInt.natAbs ≤ s.top
    · have hi : s.top - position.toInt.natAbs = (s.top + position.toInt).toNat := by omega
      rw [if_pos hb, if_pos (by omega), hi]
    · rw [if_neg hb, if_neg (by omega)]

lemma place_eq_iff {i : Int} (hi : 0 ≤ i) (ht : i < s.top) :
    s.place position = i ↔ position.toInt = i ∨ position.toInt = i - s.top := by
  unfold place
  by_cases hp : 0 ≤ position.toInt
  · rw [if_pos hp]
    omega
  · rw [if_neg hp]
    omega

lemma indexInWord_ofNat (hs : s.top ≤ greatestLength) (hi : index < s.top) :
    s.indexInWord (Int64.ofNat index) = .ok index := by
  have hn : (Int64.ofNat index).toInt = index :=
    Int64.toInt_ofNat_of_lt (by unfold greatestLength at hs; omega)
  rw [indexInWord_eq, indexOf_eq_ok_iff]
  unfold place
  rw [hn, if_pos (Int.natCast_nonneg index)]
  exact ⟨rfl, hi⟩

end Stack

namespace Processor

variable {p : Processor} {position : Int64} {index : Nat} {v : Value}

lemma resolveIndex_eq_ok_iff : p.resolveIndex position = .ok index ↔
    (index : Int) = p.stack.place position ∧ p.stack.frame ≤ index ∧ index < p.stack.top := by
  constructor
  · intro h
    obtain ⟨i, hi, h'⟩ := ok_of_bind h
    by_cases hf : i < p.stack.frame
    · rw [if_pos hf] at h'
      cases h'
    · rw [if_neg hf] at h'
      cases h'
      obtain ⟨hp, ht⟩ := Stack.indexOf_eq_ok_iff.1 hi
      exact ⟨hp, Nat.le_of_not_lt hf, ht⟩
  · rintro ⟨hp, hf, ht⟩
    unfold resolveIndex
    rw [Stack.indexOf_eq_ok_iff.2 ⟨hp, ht⟩]
    exact if_neg (Nat.not_lt.2 hf)

lemma resolve_of_index (hi : p.resolveIndex position = .ok index)
    (hv : p.stack.get? index = some v) : p.resolve (.position position) = .ok v := by
  simp only [resolve, hi, bind, Except.bind, hv]
  rfl

lemma get?_of_index (hi : p.resolveIndex position = .ok index) :
    ∃ v, p.stack.get? index = some v :=
  ⟨_, List.getElem?_eq_getElem (resolveIndex_eq_ok_iff.1 hi).2.2⟩

lemma resolve_position_eq_ok_iff : p.resolve (.position position) = .ok v ↔
    ∃ index, p.resolveIndex position = .ok index ∧ p.stack.get? index = some v := by
  constructor
  · intro h
    obtain ⟨index, hi, -⟩ := ok_of_bind h
    obtain ⟨w, hw⟩ := get?_of_index hi
    rw [resolve_of_index hi hw] at h
    cases h
    exact ⟨index, hi, hw⟩
  · rintro ⟨index, hi, hv⟩
    exact resolve_of_index hi hv

lemma exists_resolve_iff : (∃ v, p.resolve (.position position) = .ok v) ↔
    ∃ index, p.resolveIndex position = .ok index := by
  constructor
  · rintro ⟨v, hv⟩
    obtain ⟨index, hi, -⟩ := resolve_position_eq_ok_iff.1 hv
    exact ⟨index, hi⟩
  · rintro ⟨index, hi⟩
    obtain ⟨v, hv⟩ := get?_of_index hi
    exact ⟨v, resolve_of_index hi hv⟩

lemma exists_resolveIndex_iff : (∃ index, p.resolveIndex position = .ok index) ↔
    p.stack.frame ≤ p.stack.place position ∧ p.stack.place position < p.stack.top := by
  constructor
  · rintro ⟨index, hi⟩
    have := resolveIndex_eq_ok_iff.1 hi
    omega
  · rintro ⟨hf, ht⟩
    exact ⟨(p.stack.place position).toNat,
      resolveIndex_eq_ok_iff.2 ⟨by omega, by omega, by omega⟩⟩

/-! ### Values stored at positions -/

/-- The processor after a value was put into slot `i` of the stack. -/
structure Stored (p : Processor) (i : Int) (v : Value) (q : Processor) : Prop where
  slot : q.stack.get? i.toNat = some v
  others : ∀ j, j ≠ i.toNat → q.stack.get? j = p.stack.get? j
  top : q.stack.top = p.stack.top
  frame : q.stack.frame = p.stack.frame
  capacity : q.stack.capacity = p.stack.capacity
  least : q.stack.minCapacity = p.stack.minCapacity
  rest : q = { p with stack := q.stack }
  read : ∀ position : Int64, position.toInt = i ∨ position.toInt = i - p.stack.top →
    q.resolve (.position position) = .ok v
  unread : ∀ position : Int64, position.toInt ≠ i → position.toInt ≠ i - p.stack.top →
    q.resolve (.position position) = p.resolve (.position position)

lemma execute_store (host : Host) (length : Nat) {source : Argument}
    (hv : p.resolve source = .ok v) (hi : p.resolveIndex position = .ok index) :
    p.execute host length ⟨.special .store, [source, .position position]⟩ =
      ⟨{ p with stack := p.stack.set index v }, .ok .next, []⟩ := by
  simp only [execute, SpecialCommand.apply, SpecialCommand.applyStore, hv, hi, bind, Except.bind]
  rfl

lemma resolve_of_execute_store {host : Host} {length : Nat} {source : Argument} {flow : Flow}
    (h : (p.execute host length ⟨.special .store, [source, .position position]⟩).outcome =
      .ok flow) :
    (∃ v, p.resolve source = .ok v) ∧ ∃ index, p.resolveIndex position = .ok index := by
  simp only [execute, SpecialCommand.apply, SpecialCommand.applyStore] at h
  cases hv : p.resolve source with
  | error e =>
    rw [hv] at h
    cases h
  | ok v =>
    cases hi : p.resolveIndex position with
    | error e =>
      rw [hv, hi] at h
      cases h
    | ok index => exact ⟨⟨v, rfl⟩, index, rfl⟩

lemma stored_set (hi : p.resolveIndex position = .ok index) (v : Value) :
    p.Stored (p.stack.place position) v { p with stack := p.stack.set index v } := by
  obtain ⟨hp, hf, ht⟩ := resolveIndex_eq_ok_iff.1 hi
  have htop : (p.stack.set index v).top = p.stack.top := List.length_set
  have hslot : (p.stack.set index v).get? index = some v := List.getElem?_set_self ht
  have hothers (j : Nat) (hj : j ≠ index) : (p.stack.set index v).get? j = p.stack.get? j :=
    List.getElem?_set_ne hj.symm
  have hplace (other : Int64) : (p.stack.set index v).place other = p.stack.place other := by
    unfold Stack.place
    rw [htop]
  have hindex (other : Int64) :
      resolveIndex { p with stack := p.stack.set index v } other = p.resolveIndex other := by
    unfold resolveIndex
    dsimp only
    rw [Stack.indexOf_eq, Stack.indexOf_eq, hplace, htop]
    rfl
  rw [← hp]
  refine ⟨hslot, hothers, htop, rfl, rfl, rfl, rfl, ?_, ?_⟩
  · intro other ho
    have hi' : p.resolveIndex other = .ok index :=
      resolveIndex_eq_ok_iff.2
        ⟨((Stack.place_eq_iff (Int.natCast_nonneg _) (by omega)).2 ho).symm, hf, ht⟩
    exact resolve_of_index ((hindex other).trans hi') hslot
  · intro other hne hne'
    unfold resolve
    dsimp only
    rw [hindex]
    cases hj : p.resolveIndex other with
    | error e => rfl
    | ok j =>
      have hplace' := (resolveIndex_eq_ok_iff.1 hj).1
      have hji : j ≠ index := by
        rintro rfl
        have := (Stack.place_eq_iff (Int.natCast_nonneg _) (by omega)).1 hplace'.symm
        omega
      simp only [bind, Except.bind, hothers j hji, htop]

/-- A position is read exactly if it stands for a slot of the frame. A value is stored there exactly
if it and the position are there to be read, and changes that slot alone. Words of 64 bits are
enough to find the slot, also by its number. -/
theorem store_at_position (p : Processor) (position : Int64) :
    let i := p.stack.place position
    ((∃ v, p.resolve (.position position) = .ok v) ↔ p.stack.frame ≤ i ∧ i < p.stack.top) ∧
      (∀ v, p.resolve (.position position) = .ok v → p.stack.get? i.toNat = some v) ∧
      (∀ host length source,
        let x := p.execute host length ⟨.special .store, [source, .position position]⟩
        ((∃ flow, x.outcome = .ok flow) ↔
          (∃ v, p.resolve source = .ok v) ∧ ∃ w, p.resolve (.position position) = .ok w) ∧
        ∀ v flow, p.resolve source = .ok v → x.outcome = .ok flow →
          p.Stored i v x.processor ∧ flow = .next ∧ x.effects = []) ∧
      p.stack.indexInWord position = p.stack.indexOf position ∧
      (p.stack.top ≤ greatestLength → ∀ index, p.resolveIndex position = .ok index →
        p.stack.indexInWord (Int64.ofNat index) = .ok index) := by
  intro i
  refine ⟨exists_resolve_iff.trans exists_resolveIndex_iff, ?_, ?_, Stack.indexInWord_eq _ _, ?_⟩
  · intro v hv
    obtain ⟨index, hi, hv⟩ := resolve_position_eq_ok_iff.1 hv
    have hn : i.toNat = index := by
      have := (resolveIndex_eq_ok_iff.1 hi).1
      omega
    rwa [hn]
  · intro host length source x
    rw [exists_resolve_iff]
    refine ⟨⟨?_, ?_⟩, ?_⟩
    · rintro ⟨flow, hx⟩
      exact resolve_of_execute_store hx
    · rintro ⟨⟨v, hv⟩, index, hi⟩
      exact ⟨.next, by simp only [x, execute_store host length hv hi]⟩
    · intro v flow hv hx
      obtain ⟨-, index, hi⟩ := resolve_of_execute_store hx
      have he : x = ⟨{ p with stack := p.stack.set index v }, .ok .next, []⟩ :=
        execute_store host length hv hi
      rw [he] at hx ⊢
      cases hx
      exact ⟨stored_set hi v, rfl, rfl⟩
  · intro hm index hi
    exact Stack.indexInWord_ofNat hm (resolveIndex_eq_ok_iff.1 hi).2.2

end Processor

end TransactionEngine
