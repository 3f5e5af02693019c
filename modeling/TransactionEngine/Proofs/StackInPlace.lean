import Mathlib.Order.Bounds.Defs
import TransactionEngine.Host
import TransactionEngine.Proofs.StackFrames

/-!
# Operations in place

The operations of a stack as steps that change it in place, on a machine whose words have 64 bits
and whose memory may grant some capacities and not others. As long as the stack has its shape, the
steps come to what the operations say, and a change that fails has changed nothing.
-/

namespace TransactionEngine.Stack

/-- The operations that change a stack. -/
inductive Operation where
  | push (n : Nat)
  | pushValues (values : List Value)
  | pop (n : Nat)
  | startFrame
  | restoreFrame (saved : Nat)
  | setAt (position : Int64) (v : Value)
  | write (start : Nat) (values : List Value)

/-- The stack after an operation. -/
def Operation.apply (s : Stack) : Operation → Except Error Stack
  | .push n => s.push n
  | .pushValues values => s.pushValues values
  | .pop n => s.pop n
  | .startFrame => .ok s.startFrame.2
  | .restoreFrame saved => s.restoreFrame saved
  | .setAt position v => s.setAt position v
  | .write start values => do
    let slots ← s.slotsFrom start
    pure (s.overwriteFrom start (overwrite values slots))

/-- `capacity` doubled until `needed` slots fit, or nothing once a word does not hold it. -/
def doubledInWord (needed capacity : Nat) : Option Nat :=
  if capacity < needed ∧ 0 < capacity then
    if capacity * 2 < UInt64.size then doubledInWord needed (capacity * 2) else none
  else some capacity
termination_by needed - capacity

/-- Makes room for `needed` slots in all. -/
def reserveInPlace (granted : Nat → Bool) (needed : Nat) : EStateM Error Stack Unit := do
  let s ← get
  if s.capacity < needed then
    match doubledInWord needed (max s.capacity s.minCapacity) with
    | none => throw .outOfMemory
    | some capacity =>
      unless granted capacity do throw .outOfMemory
      modify fun s => { s with capacity }

def pushInPlace (granted : Nat → Bool) (n : Nat) : EStateM Error Stack Unit := do
  let s ← get
  let needed := s.top + n
  if UInt64.size ≤ needed then throw .outOfMemory
  reserveInPlace granted needed
  modify fun s => { s with slots := s.slots ++ List.replicate n .nil }

/-- Values are put into the slots after these were pushed. -/
def pushValuesInPlace (granted : Nat → Bool) (values : List Value) :
    EStateM Error Stack Unit := do
  let s ← get
  pushInPlace granted values.length
  modify fun t => t.overwriteFrom s.top values

def popInPlace (n : Nat) : EStateM Error Stack Unit := do
  let s ← get
  if s.frameLength < n then throw (.popBelowFrame n s.frameLength)
  modify fun s => { s with slots := s.slots.take (s.top - n) }
  modify shrink

def restoreFrameInPlace (saved : Nat) : EStateM Error Stack Unit := do
  let s ← get
  if s.frame < saved then throw (.frameAbove saved s.frame)
  popInPlace s.frameLength
  modify fun s => { s with frame := saved }

/-- An operation in place, where memory is granted for some capacities only. -/
def Operation.run (granted : Nat → Bool) : Operation → EStateM Error Stack Unit
  | .push n => pushInPlace granted n
  | .pushValues values => pushValuesInPlace granted values
  | .pop n => popInPlace n
  | .startFrame => modify fun s => s.startFrame.2
  | .restoreFrame saved => restoreFrameInPlace saved
  | .setAt position v => do
    let s ← get
    let index ← MonadExcept.ofExcept (s.indexOf position)
    modify fun s => s.set index v
  | .write start values => do
    let s ← get
    let slots ← MonadExcept.ofExcept (s.slotsFrom start)
    modify fun s => s.overwriteFrom start (overwrite values slots)

/-- The doublings of the least room that hold `needed` slots. -/
def rooms (least needed : Nat) : Set Nat :=
  {c | (∃ k, c = least * 2 ^ k) ∧ needed ≤ c}

/-- What holds of every stack that was made with this room. -/
structure Shaped (least : Nat) (s : Stack) : Prop where
  minCapacity : s.minCapacity = least
  frame : s.frame ≤ s.top
  top : s.top ≤ s.capacity
  doubling : ∃ k, s.capacity = least * 2 ^ k
  tight : s.capacity = least ∨ s.capacity < 4 * s.top
  word : s.capacity < UInt64.size

/-- A word does not hold `needed`, or the least room for so many slots is not to be had. -/
def NoRoom (granted : Nat → Bool) (s : Stack) (needed : Nat) : Prop :=
  UInt64.size ≤ needed ∨ s.capacity < needed ∧
    ∃ c, IsLeast (rooms s.minCapacity needed) c ∧ (UInt64.size ≤ c ∨ granted c = false)

variable {s : Stack} {least needed capacity : Nat} {granted : Nat → Bool}

lemma le_doubled (hc : 0 < capacity) : needed ≤ doubled needed capacity := by
  fun_induction doubled needed capacity with
  | case1 capacity h ih => exact ih (Nat.mul_pos hc Nat.two_pos)
  | case2 capacity h => omega

lemma doubled_le {k : Nat} (h : needed ≤ capacity * 2 ^ k) :
    doubled needed capacity ≤ capacity * 2 ^ k := by
  fun_induction doubled needed capacity generalizing k with
  | case1 capacity hc ih =>
    cases k with
    | zero => omega
    | succ k =>
      have hk : capacity * 2 ^ (k + 1) = capacity * 2 * 2 ^ k := by
        rw [Nat.pow_succ, Nat.mul_comm (2 ^ k), Nat.mul_assoc]
      rw [hk] at h ⊢
      exact ih h
  | case2 capacity hc => exact Nat.le_mul_of_pos_right _ (Nat.two_pow_pos k)

lemma doubled_of_le (h : needed ≤ capacity) : doubled needed capacity = capacity := by
  rw [doubled, dif_neg]
  omega

lemma capacity_le_doubled : capacity ≤ doubled needed capacity := by
  obtain ⟨k, hk⟩ := doubled_eq needed capacity
  rw [hk]
  exact Nat.le_mul_of_pos_right _ (Nat.two_pow_pos k)

/-- Doubling stops at the first doubling of the least room that fits. -/
theorem isLeast_doubled {i : Nat} (hl : 0 < least) (h : least * 2 ^ i < needed) :
    IsLeast (rooms least needed) (doubled needed (least * 2 ^ i)) := by
  refine ⟨⟨?_, le_doubled (Nat.mul_pos hl (Nat.two_pow_pos i))⟩, ?_⟩
  · obtain ⟨k, hk⟩ := doubled_eq needed (least * 2 ^ i)
    exact ⟨i + k, by rw [hk, Nat.pow_add, Nat.mul_assoc]⟩
  · rintro c ⟨⟨j, rfl⟩, hj⟩
    have hij : i ≤ j := by
      by_contra hji
      have hle : least * 2 ^ j ≤ least * 2 ^ i :=
        Nat.mul_le_mul_left _ (Nat.pow_le_pow_right Nat.two_pos (Nat.le_of_not_le hji))
      omega
    obtain ⟨d, rfl⟩ := Nat.exists_eq_add_of_le hij
    rw [Nat.pow_add, ← Nat.mul_assoc] at hj ⊢
    exact doubled_le hj

lemma doubledInWord_eq (hc : capacity < UInt64.size) : doubledInWord needed capacity =
    if doubled needed capacity < UInt64.size then some (doubled needed capacity) else none := by
  fun_induction doubledInWord needed capacity with
  | case1 capacity h hw ih =>
    rw [doubled, dif_pos h]
    exact ih hw
  | case2 capacity h hw =>
    -- What is doubled further is too large for a word all the more.
    have hle : capacity * 2 ≤ doubled needed (capacity * 2) := capacity_le_doubled
    rw [doubled, dif_pos h, if_neg (by omega)]
  | case3 capacity h => rw [doubled, dif_neg h, if_pos hc]

lemma halved_le (least top capacity : Nat) : halved least top capacity ≤ capacity := by
  fun_induction halved least top capacity with
  | case1 capacity h ih => exact Nat.le_trans ih (Nat.div_le_self _ _)
  | case2 capacity h => exact Nat.le_refl _

/-- What halving gives back leaves half of the room free. -/
lemma halved_eq_or (least top capacity : Nat) :
    halved least top capacity = capacity ∨ 2 * top ≤ halved least top capacity := by
  fun_induction halved least top capacity with
  | case1 capacity h ih =>
    obtain ih | ih := ih
    · rw [ih]
      omega
    · exact .inr ih
  | case2 capacity h => exact .inl rfl

/-! ### What the steps come to -/

/-- A change in place that fails leaves the stack as it was. -/
def settled (s : Stack) : Except Error Stack → EStateM.Result Error Stack Unit
  | .ok t => .ok () t
  | .error e => .error e s

/-- The stack with values on top, in the least room for them. -/
def extended (s : Stack) (values : List Value) : Stack :=
  { s with
    slots := s.slots ++ values
    capacity := doubled (s.top + values.length) s.capacity }

lemma get_bind (f : Stack → EStateM Error Stack Unit) : (get >>= f) s = f s s :=
  rfl

lemma Shaped.noRoom_iff (h : s.Shaped least) (hl : 0 < least) :
    s.NoRoom granted needed ↔ UInt64.size ≤ needed ∨ s.capacity < needed ∧
      (UInt64.size ≤ doubled needed s.capacity ∨ granted (doubled needed s.capacity) = false) := by
  refine or_congr_right (and_congr_right fun hn => ?_)
  obtain ⟨i, hi⟩ := h.doubling
  rw [hi] at hn
  have hd := isLeast_doubled hl hn
  rw [← hi, ← h.minCapacity] at hd
  constructor
  · rintro ⟨c, hc, ho⟩
    rwa [Nat.le_antisymm (hc.2 hd.1) (hd.2 hc.1)] at ho
  · intro ho
    exact ⟨_, hd, ho⟩

lemma reserveInPlace_of_le (hn : needed ≤ s.capacity) :
    reserveInPlace granted needed s = .ok () s := by
  unfold reserveInPlace
  rw [get_bind, if_neg (Nat.not_lt.2 hn)]
  rfl

lemma Shaped.reserveInPlace_of_lt (h : s.Shaped least) (hn : s.capacity < needed)
    (granted : Nat → Bool) : reserveInPlace granted needed s =
      if doubled needed s.capacity < UInt64.size ∧ granted (doubled needed s.capacity) then
        .ok () { s with capacity := doubled needed s.capacity }
      else .error .outOfMemory s := by
  have hm : max s.capacity s.minCapacity = s.capacity := by
    obtain ⟨k, hk⟩ := h.doubling
    rw [h.minCapacity, hk]
    exact Nat.max_eq_left (Nat.le_mul_of_pos_right _ (Nat.two_pow_pos k))
  unfold reserveInPlace
  rw [get_bind, if_pos hn, hm, doubledInWord_eq h.word]
  by_cases hw : doubled needed s.capacity < UInt64.size
  · rw [if_pos hw]
    by_cases hg : granted (doubled needed s.capacity) = true
    · rw [if_pos ⟨hw, hg⟩]
      dsimp only
      rw [if_pos hg]
      rfl
    · rw [if_neg fun hb => hg hb.2]
      dsimp only
      rw [if_neg hg]
      rfl
  · rw [if_neg hw, if_neg fun hb => hw hb.1]
    rfl

lemma Shaped.reserveInPlace_of_noRoom (h : s.Shaped least) (hl : 0 < least)
    (hn : s.NoRoom granted needed) (hw : needed < UInt64.size) :
    reserveInPlace granted needed s = .error .outOfMemory s := by
  obtain hw' | ⟨hlt, ho⟩ := (h.noRoom_iff hl).1 hn
  · omega
  · rw [h.reserveInPlace_of_lt hlt, if_neg]
    rintro ⟨hd, hg⟩
    obtain hd' | hg' := ho
    · omega
    · rw [hg] at hg'
      cases hg'

lemma Shaped.reserveInPlace_of_room (h : s.Shaped least) (hl : 0 < least)
    (hn : ¬s.NoRoom granted needed) :
    doubled needed s.capacity < UInt64.size ∧
      reserveInPlace granted needed s = .ok () { s with capacity := doubled needed s.capacity } := by
  by_cases hle : needed ≤ s.capacity
  · rw [doubled_of_le hle]
    exact ⟨h.word, reserveInPlace_of_le hle⟩
  · have hlt := Nat.lt_of_not_le hle
    rw [h.noRoom_iff hl, not_or, not_and, not_or, Nat.not_le, Nat.not_le,
      Bool.not_eq_false] at hn
    have hg := hn.2 hlt
    rw [h.reserveInPlace_of_lt hlt, if_pos hg]
    exact ⟨hg.1, rfl⟩

/-- What comes of pushing values. -/
inductive Pushed (granted : Nat → Bool) (s : Stack) (values : List Value) :
    EStateM.Result Error Stack Unit → Prop
  | refused (h : s.NoRoom granted (s.top + values.length)) :
    Pushed granted s values (.error .outOfMemory s)
  | done (h : ¬s.NoRoom granted (s.top + values.length))
    (hw : doubled (s.top + values.length) s.capacity < UInt64.size) :
    Pushed granted s values (.ok () (s.extended values))

/-- Nils are pushed after room was made for them. -/
theorem Shaped.pushed_nils (h : s.Shaped least) (hl : 0 < least) (granted : Nat → Bool)
    (n : Nat) : s.Pushed granted (List.replicate n .nil) (pushInPlace granted n s) := by
  have hlen : s.top + n = s.top + (List.replicate n Value.nil).length := by
    rw [List.length_replicate]
  unfold pushInPlace
  rw [get_bind]
  dsimp only
  rw [hlen]
  by_cases hw : UInt64.size ≤ s.top + (List.replicate n Value.nil).length
  · rw [if_pos hw]
    exact .refused (.inl hw)
  · rw [if_neg hw]
    by_cases hn : s.NoRoom granted (s.top + (List.replicate n Value.nil).length)
    · have hr := h.reserveInPlace_of_noRoom hl hn (Nat.lt_of_not_le hw)
      simp only [bind, EStateM.bind, hr]
      exact .refused hn
    · obtain ⟨hd, hr⟩ := h.reserveInPlace_of_room hl hn
      simp only [bind, EStateM.bind, hr]
      exact .done hn hd

/-- Values are put where nils were pushed. -/
theorem Shaped.pushed_values (h : s.Shaped least) (hl : 0 < least) (granted : Nat → Bool)
    (values : List Value) : s.Pushed granted values (pushValuesInPlace granted values s) := by
  have hp := h.pushed_nils hl granted values.length
  have hlen : (List.replicate values.length Value.nil).length = values.length :=
    List.length_replicate
  unfold pushValuesInPlace
  rw [get_bind]
  generalize hx : pushInPlace granted values.length s = x at hp
  simp only [bind, EStateM.bind, hx]
  cases hp with
  | refused hn =>
    rw [hlen] at hn
    exact .refused hn
  | done hn hw =>
    have hs : (s.slots ++ List.replicate values.length Value.nil).take s.top = s.slots :=
      List.take_left
    have hd : (s.slots ++ List.replicate values.length Value.nil).drop
        (s.top + values.length) = [] :=
      List.drop_eq_nil_of_le
        (by rw [List.length_append, List.length_replicate]; exact Nat.le_refl _)
    have ho : (s.extended (List.replicate values.length .nil)).overwriteFrom s.top values =
        s.extended values := by
      unfold extended overwriteFrom
      dsimp only
      rw [hs, hd, List.append_nil, hlen]
    rw [hlen] at hn hw
    have hdone := Pushed.done hn hw
    rw [← ho] at hdone
    exact hdone

lemma popInPlace_eq (n : Nat) : popInPlace n s = settled s (s.pop n) := by
  unfold popInPlace pop
  rw [get_bind]
  by_cases h : s.frameLength < n
  · rw [if_pos h, if_pos h]
    rfl
  · rw [if_neg h, if_neg h]
    rfl

lemma restoreFrameInPlace_eq (saved : Nat) :
    restoreFrameInPlace saved s = settled s (s.restoreFrame saved) := by
  unfold restoreFrameInPlace restoreFrame
  rw [get_bind]
  by_cases h : s.frame < saved
  · rw [if_pos h, if_pos h]
    rfl
  · rw [if_neg h, if_neg h]
    simp only [bind, EStateM.bind, pure, popInPlace_eq]
    cases s.pop s.frameLength with
    | ok t => rfl
    | error e => rfl

lemma run_setAt (position : Int64) (v : Value) :
    (Operation.setAt position v).run granted s = settled s (s.setAt position v) := by
  unfold Operation.run setAt
  dsimp only
  rw [get_bind]
  cases s.indexOf position with
  | ok index => rfl
  | error e => rfl

lemma run_write (start : Nat) (values : List Value) :
    (Operation.write start values).run granted s =
      settled s ((Operation.write start values).apply s) := by
  unfold Operation.run Operation.apply
  dsimp only
  rw [get_bind]
  cases s.slotsFrom start with
  | ok slots => rfl
  | error e => rfl

/-- The memory that the stack counts on. -/
def ordinary (capacity : Nat) : Bool :=
  decide (capacity ≤ greatestCapacity)

lemma pushValues_eq (s : Stack) (values : List Value) : s.pushValues values =
    if s.top + values.length ≤ s.capacity ∨
        doubled (s.top + values.length) s.capacity ≤ greatestCapacity then
      .ok (s.extended values)
    else .error .outOfMemory := by
  unfold pushValues reserve extended
  by_cases hn : s.top + values.length ≤ s.capacity
  · rw [if_pos hn, if_pos (.inl hn), doubled_of_le hn]
    rfl
  · rw [if_neg hn]
    dsimp only
    by_cases hg : doubled (s.top + values.length) s.capacity ≤ greatestCapacity
    · rw [if_pos hg, if_pos (.inr hg)]
      rfl
    · rw [if_neg hg, if_neg (not_or.2 ⟨hn, hg⟩)]
      rfl

lemma Shaped.noRoom_ordinary (h : s.Shaped least) (hl : 0 < least) :
    s.NoRoom ordinary needed ↔
      ¬(needed ≤ s.capacity ∨ doubled needed s.capacity ≤ greatestCapacity) := by
  have hd : needed ≤ doubled needed s.capacity := by
    obtain ⟨k, hk⟩ := h.doubling
    exact le_doubled (by rw [hk]; exact Nat.mul_pos hl (Nat.two_pow_pos k))
  have hw : greatestCapacity < UInt64.size := by decide
  have hs := h.word
  rw [h.noRoom_iff hl, ordinary, decide_eq_false_iff_not]
  omega

lemma Shaped.settled_pushed (h : s.Shaped least) (hl : 0 < least) {values : List Value}
    {x : EStateM.Result Error Stack Unit} (hx : s.Pushed ordinary values x) :
    x = settled s (s.pushValues values) := by
  rw [pushValues_eq]
  cases hx with
  | refused hn =>
    rw [if_neg ((h.noRoom_ordinary hl).1 hn)]
    rfl
  | done hroom _ =>
    rw [h.noRoom_ordinary hl, not_not] at hroom
    rw [if_pos hroom]
    rfl

/-- In the memory that the stack counts on, an operation does in place what it says. -/
theorem Shaped.run_ordinary (h : s.Shaped least) (hl : 0 < least) (op : Operation) :
    op.run ordinary s = settled s (op.apply s) := by
  cases op with
  | push n =>
    have hx : (Operation.push n).apply s = s.pushValues (List.replicate n .nil) :=
      push_eq_pushValues s n
    rw [hx]
    exact h.settled_pushed hl (h.pushed_nils hl ordinary n)
  | pushValues values => exact h.settled_pushed hl (h.pushed_values hl ordinary values)
  | pop n => exact popInPlace_eq n
  | startFrame => rfl
  | restoreFrame saved => exact restoreFrameInPlace_eq saved
  | setAt position v => exact run_setAt position v
  | write start values => exact run_write start values

end TransactionEngine.Stack
