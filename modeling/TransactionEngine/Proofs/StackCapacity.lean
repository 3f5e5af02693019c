import TransactionEngine.Proofs.StackInPlace

/-!
# The room of a stack

What is reached from a new stack by any operations keeps its shape: the frame starts no higher
than the top, all slots have room, and the room is a doubling of the least room that is not four
times too large. A push that needs more room takes the least that fits, a pop that gives room back
leaves half of the rest free, and an operation that fails has changed nothing.
-/

namespace TransactionEngine.Stack

/-- The stack that an operation leaves, be it that it fails. -/
def after (granted : Nat → Bool) (s : Stack) (op : Operation) : Stack :=
  match op.run granted s with
  | .ok _ t => t
  | .error _ t => t

/-- The stack after operations, each of which finds the memory of its time. -/
def afterAll (s : Stack) (history : List ((Nat → Bool) × Operation)) : Stack :=
  history.foldl (fun s step => s.after step.1 step.2) s

/-- How an operation changes the room. -/
structure Resized (s t : Stack) : Prop where
  grown : s.capacity < t.capacity → IsLeast (rooms s.minCapacity t.top) t.capacity
  halved : t.capacity < s.capacity → 2 * t.top ≤ t.capacity

/-- The operations that fail, and with which errors. -/
inductive Refuses (granted : Nat → Bool) (s : Stack) : Operation → Error → Prop
  | push {n : Nat} (h : s.NoRoom granted (s.top + n)) : Refuses granted s (.push n) .outOfMemory
  | pushValues {values : List Value} (h : s.NoRoom granted (s.top + values.length)) :
    Refuses granted s (.pushValues values) .outOfMemory
  | pop {n : Nat} (h : s.frameLength < n) :
    Refuses granted s (.pop n) (.popBelowFrame n s.frameLength)
  | restoreFrame {saved : Nat} (h : s.frame < saved) :
    Refuses granted s (.restoreFrame saved) (.frameAbove saved s.frame)
  | setAt {position : Int64} {v : Value}
    (h : position.toInt < -s.top ∨ (s.top : Int) ≤ position.toInt) :
    Refuses granted s (.setAt position v) (.outsideStack position s.top)
  | write {start : Nat} {values : List Value} (h : s.top < start) :
    Refuses granted s (.write start values) (.aboveTop start)

variable {s t : Stack} {least needed : Nat} {granted : Nat → Bool}

lemma resized_of_eq (h : t.capacity = s.capacity) : s.Resized t where
  grown hg := absurd hg (by omega)
  halved hg := absurd hg (by omega)

lemma Shaped.fitted (h : s.Shaped least) (hl : 0 < least) {slots : List Value} {frame : Nat}
    (hs : slots.length ≤ s.top) (hf : frame ≤ slots.length) :
    let t : Stack := ⟨slots, frame, halved s.minCapacity slots.length s.capacity, s.minCapacity⟩
    t.Shaped least ∧ s.Resized t := by
  intro t
  have hh : t.capacity = s.capacity ∨ 2 * t.top ≤ t.capacity := halved_eq_or _ _ _
  have hle : t.capacity ≤ s.capacity := halved_le _ _ _
  have htop : t.top ≤ s.capacity := Nat.le_trans hs h.top
  obtain ⟨k, hk⟩ := h.doubling
  obtain ⟨j, hj, hjt⟩ := halved_doubling hl t.top k
  rw [← hk, ← h.minCapacity] at hj
  have hc : t.capacity = least * 2 ^ j := by rw [← h.minCapacity]; exact hj
  refine ⟨⟨h.minCapacity, hf, by omega, ⟨j, hc⟩, ?_, Nat.lt_of_le_of_lt hle h.word⟩,
    fun hg => by omega, fun _ => by omega⟩
  rw [hc]
  refine hjt.imp_left fun hz => ?_
  rw [hz, Nat.pow_zero, Nat.mul_one]

lemma tight_of_isLeast {c : Nat} (hl : 0 < least) (h : IsLeast (rooms least needed) c) :
    c = least ∨ c < 2 * needed := by
  obtain ⟨⟨⟨k, rfl⟩, hn⟩, hle⟩ := h
  cases k with
  | zero => exact .inl (by rw [Nat.pow_zero, Nat.mul_one])
  | succ k =>
    have hk : least * 2 ^ (k + 1) = 2 * (least * 2 ^ k) := by
      rw [Nat.pow_succ, Nat.mul_comm (2 ^ k), Nat.mul_left_comm]
    have hpos : 0 < least * 2 ^ k := Nat.mul_pos hl (Nat.two_pow_pos k)
    rw [hk] at hle ⊢
    refine .inr (Nat.mul_lt_mul_of_pos_left ?_ Nat.two_pos)
    by_contra hfits
    have hhalf : 2 * (least * 2 ^ k) ≤ least * 2 ^ k := hle ⟨⟨k, rfl⟩, Nat.le_of_not_lt hfits⟩
    omega

lemma Shaped.extended (h : s.Shaped least) (hl : 0 < least) {values : List Value}
    (hw : doubled (s.top + values.length) s.capacity < UInt64.size) :
    (s.extended values).Shaped least ∧ s.Resized (s.extended values) := by
  have htop : (s.extended values).top = s.top + values.length := List.length_append
  have hframe : s.frame ≤ (s.extended values).top := by
    rw [htop]
    exact Nat.le_add_right_of_le h.frame
  obtain ⟨i, hi⟩ := h.doubling
  -- A room that is kept only gets tighter; one that grows is the least that fits.
  by_cases hn : s.top + values.length ≤ s.capacity
  · have hc : (s.extended values).capacity = s.capacity := doubled_of_le hn
    have ht := h.tight
    exact ⟨⟨h.minCapacity, hframe, by omega, ⟨i, by omega⟩, by omega, hw⟩, resized_of_eq hc⟩
  · have hd : IsLeast (rooms least (s.extended values).top) (s.extended values).capacity := by
      rw [htop]
      unfold Stack.extended
      dsimp only
      rw [hi] at hn ⊢
      exact isLeast_doubled hl (Nat.lt_of_not_le hn)
    have hle : s.capacity ≤ (s.extended values).capacity := capacity_le_doubled
    have ht := tight_of_isLeast hl hd
    refine ⟨⟨h.minCapacity, hframe, hd.1.2, hd.1.1, by omega, hw⟩, fun _ => ?_,
      fun hg => by omega⟩
    rw [h.minCapacity]
    exact hd

lemma Shaped.rewritten (h : s.Shaped least) {slots : List Value}
    (hs : slots.length = s.slots.length) :
    ({ s with slots } : Stack).Shaped least ∧ s.Resized { s with slots } := by
  have htop : ({ s with slots } : Stack).top = s.top := hs
  refine ⟨⟨h.minCapacity, ?_, ?_, h.doubling, ?_, h.word⟩, resized_of_eq rfl⟩
  · rw [htop]
    exact h.frame
  · rw [htop]
    exact h.top
  · rw [htop]
    exact h.tight

lemma length_overwriteFrom {start : Nat} {values : List Value} (hs : start ≤ s.top)
    (hv : values.length = s.top - start) :
    (s.overwriteFrom start values).slots.length = s.slots.length := by
  have htop : s.slots.length = s.top := rfl
  simp only [overwriteFrom, List.length_append, List.length_take, List.length_drop]
  omega

/-- What can become of an operation on a stack. -/
inductive Ends (least : Nat) (granted : Nat → Bool) (s : Stack) (op : Operation) : Prop
  | refused {e : Error} (h : s.Refuses granted op e) (hr : op.run granted s = .error e s)
  | done {t : Stack} (h : ∀ e, ¬s.Refuses granted op e) (hr : op.run granted s = .ok () t)
    (ht : t.Shaped least ∧ s.Resized t)

lemma Shaped.ends_pushed (h : s.Shaped least) (hl : 0 < least) (op : Operation)
    {values : List Value} (hp : s.Pushed granted values (op.run granted s))
    (hop : ∀ e, s.Refuses granted op e ↔
      s.NoRoom granted (s.top + values.length) ∧ e = .outOfMemory) :
    s.Ends least granted op := by
  generalize hx : op.run granted s = x at hp
  cases hp with
  | refused hn => exact .refused ((hop .outOfMemory).2 ⟨hn, rfl⟩) hx
  | done hn hw =>
    refine .done ?_ hx (h.extended hl hw)
    intro e he
    exact hn ((hop e).1 he).1

lemma Shaped.ends_pop (h : s.Shaped least) (hl : 0 < least) (n : Nat) :
    s.Ends least granted (.pop n) := by
  have hr : (Operation.pop n).run granted s = settled s (s.pop n) := popInPlace_eq n
  unfold Stack.pop at hr
  by_cases hn : s.frameLength < n
  · rw [if_pos hn] at hr
    exact .refused (.pop hn) hr
  · rw [if_neg hn] at hr
    have hlen : (s.slots.take (s.top - n)).length = s.top - n :=
      List.length_take_of_le (Nat.sub_le _ _)
    have hle : (s.slots.take (s.top - n)).length ≤ s.top := by omega
    have hframe : s.frame ≤ (s.slots.take (s.top - n)).length := by
      have hf := h.frame
      unfold frameLength at hn
      omega
    refine .done ?_ hr (h.fitted hl hle hframe)
    rintro e ⟨⟩
    contradiction

lemma Shaped.ends_restoreFrame (h : s.Shaped least) (hl : 0 < least) (saved : Nat) :
    s.Ends least granted (.restoreFrame saved) := by
  have hr : (Operation.restoreFrame saved).run granted s = settled s (s.restoreFrame saved) :=
    restoreFrameInPlace_eq saved
  unfold Stack.restoreFrame Stack.pop at hr
  by_cases hn : s.frame < saved
  · rw [if_pos hn] at hr
    exact .refused (.restoreFrame hn) hr
  · -- A frame has as many slots as are popped, so that popping them does not fail.
    rw [if_neg hn, if_neg (Nat.lt_irrefl _)] at hr
    have hlen : (s.slots.take (s.top - s.frameLength)).length = s.top - s.frameLength :=
      List.length_take_of_le (Nat.sub_le _ _)
    have hle : (s.slots.take (s.top - s.frameLength)).length ≤ s.top := by omega
    have hframe : saved ≤ (s.slots.take (s.top - s.frameLength)).length := by
      have hf := h.frame
      unfold frameLength at hlen ⊢
      omega
    refine .done ?_ hr (h.fitted hl hle hframe)
    rintro e ⟨⟩
    contradiction

lemma Shaped.ends_setAt (h : s.Shaped least) (position : Int64) (v : Value) :
    s.Ends least granted (.setAt position v) := by
  have hr : (Operation.setAt position v).run granted s = settled s (s.setAt position v) :=
    run_setAt position v
  unfold Stack.setAt at hr
  by_cases hn : position.toInt < -s.top ∨ (s.top : Int) ≤ position.toInt
  · have hx : s.indexOf position = .error (.outsideStack position s.top) := by
      unfold indexOf
      dsimp only
      split_ifs <;> first | rfl | omega
    rw [hx] at hr
    exact .refused (.setAt hn) hr
  · obtain ⟨index, hx⟩ : ∃ index, s.indexOf position = .ok index := by
      unfold indexOf
      dsimp only
      split_ifs <;> first | exact ⟨_, rfl⟩ | omega
    rw [hx] at hr
    refine .done ?_ hr (h.rewritten List.length_set)
    rintro e ⟨⟩
    contradiction

lemma Shaped.ends_write (h : s.Shaped least) (start : Nat) (values : List Value) :
    s.Ends least granted (.write start values) := by
  have hr : (Operation.write start values).run granted s =
      settled s ((Operation.write start values).apply s) := run_write start values
  unfold Operation.apply slotsFrom at hr
  dsimp only at hr
  by_cases hn : start ≤ s.top
  · rw [if_pos hn] at hr
    have hlen : (overwrite values (s.slots.drop start)).length = s.top - start :=
      (length_overwrite _ _).trans List.length_drop
    refine .done ?_ hr (h.rewritten (length_overwriteFrom hn hlen))
    rintro e ⟨⟩
    omega
  · rw [if_neg hn] at hr
    exact .refused (.write (Nat.lt_of_not_le hn)) hr

/-- An operation fails on the stack as it was, or leads to a stack of the same shape. -/
theorem Shaped.ends (h : s.Shaped least) (hl : 0 < least) (granted : Nat → Bool)
    (op : Operation) : s.Ends least granted op := by
  cases op with
  | push n =>
    refine h.ends_pushed hl (.push n) (h.pushed_nils hl granted n) fun e => ?_
    rw [List.length_replicate]
    constructor
    · intro he
      cases he with
      | push hn => exact ⟨hn, rfl⟩
    · rintro ⟨hn, rfl⟩
      exact .push hn
  | pushValues values =>
    refine h.ends_pushed hl (.pushValues values) (h.pushed_values hl granted values) fun e => ?_
    constructor
    · intro he
      cases he with
      | pushValues hn => exact ⟨hn, rfl⟩
    · rintro ⟨hn, rfl⟩
      exact .pushValues hn
  | pop n => exact h.ends_pop hl n
  | startFrame =>
    refine .done ?_ rfl ⟨⟨h.minCapacity, Nat.le_refl _, h.top, h.doubling, h.tight, h.word⟩,
      resized_of_eq rfl⟩
    rintro e ⟨⟩
  | restoreFrame saved => exact h.ends_restoreFrame hl saved
  | setAt position v => exact h.ends_setAt position v
  | write start values => exact h.ends_write start values

/-! ### Histories -/

lemma Ends.after {op : Operation} (h : s.Ends least granted op) (hs : s.Shaped least) :
    (s.after granted op).Shaped least ∧ s.Resized (s.after granted op) := by
  unfold Stack.after
  cases h with
  | refused _ hr =>
    rw [hr]
    exact ⟨hs, resized_of_eq rfl⟩
  | done _ hr ht =>
    rw [hr]
    exact ht

lemma Refuses.unique {op : Operation} {e e' : Error} (h : s.Refuses granted op e)
    (h' : s.Refuses granted op e') : e = e' := by
  cases h <;> cases h' <;> rfl

lemma Ends.error_iff {op : Operation} {e : Error} (h : s.Ends least granted op) :
    op.run granted s = .error e t ↔ s.Refuses granted op e ∧ t = s := by
  cases h with
  | refused hf hr =>
    rw [hr]
    constructor
    · rintro ⟨⟩
      exact ⟨hf, rfl⟩
    · rintro ⟨hf', rfl⟩
      rw [hf.unique hf']
  | done hn hr _ =>
    rw [hr]
    refine iff_of_false (by rintro ⟨⟩) ?_
    rintro ⟨hf, -⟩
    exact hn e hf

lemma shaped_ofCapacity (n : UInt64) : (ofCapacity n.toNat).Shaped (max n.toNat 4) where
  minCapacity := rfl
  frame := Nat.le_refl 0
  top := Nat.zero_le _
  doubling := ⟨0, (Nat.mul_one _).symm⟩
  tight := .inl rfl
  word := Nat.max_lt.2 ⟨n.toNat_lt, by decide⟩

lemma Shaped.afterAll (h : s.Shaped least) (hl : 0 < least)
    (history : List ((Nat → Bool) × Operation)) : (s.afterAll history).Shaped least := by
  induction history generalizing s with
  | nil => exact h
  | cons step history ih => exact ih ((h.ends hl step.1 step.2).after h).1

/-- Whatever is done to a stack, and whatever memory is granted for, the stack keeps its shape;
the next operation changes the room only as it must, and fails exactly where it says, with the
stack as it was. -/
theorem shaped_afterAll (n : UInt64) (history : List ((Nat → Bool) × Operation)) :
    let least := max n.toNat 4
    let s := (ofCapacity n.toNat).afterAll history
    s.Shaped least ∧ ∀ op : Operation,
      op.run ordinary s = settled s (op.apply s) ∧
      ∀ granted : Nat → Bool,
        s.Resized (s.after granted op) ∧
          ∀ e t, op.run granted s = .error e t ↔ s.Refuses granted op e ∧ t = s := by
  intro least s
  have hl : 0 < least := Nat.lt_of_lt_of_le (by decide) (Nat.le_max_right n.toNat 4)
  have hs : s.Shaped least := (shaped_ofCapacity n).afterAll hl history
  refine ⟨hs, fun op => ⟨hs.run_ordinary hl op, fun granted => ?_⟩⟩
  have hends := hs.ends hl granted op
  exact ⟨(hends.after hs).2, fun e t => hends.error_iff⟩

end TransactionEngine.Stack
