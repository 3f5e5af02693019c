import TransactionEngine.Proofs.CommandsInPlace
import TransactionEngine.Proofs.Moves
import TransactionEngine.Proofs.StackInPlace

/-!
# Runs of values on the stack

A regular command works on a run of values at the top of the stack and leaves all slots below as
they were, be the run the whole frame or the values of its arguments. What it does depends on the
run alone, so that a command with arguments does the same as one without on a frame that holds their
values.
-/

namespace TransactionEngine

/-! ### A run at the top -/

namespace Stack

variable {s : Stack} {start : Nat} {values : List Value}

lemma overwriteFrom_of_length (hs : start ≤ s.top) (hv : values.length = s.top - start) :
    s.overwriteFrom start values = { s with slots := s.slots.take start ++ values } := by
  have hd : s.slots.drop (start + values.length) = [] :=
    List.drop_eq_nil_of_le (by unfold top at hs hv; omega)
  unfold overwriteFrom
  rw [hd, List.append_nil]

lemma pop_append (s : Stack) {kept left : List Value} (hf : s.frame ≤ kept.length) :
    pop { s with slots := kept ++ left } left.length = .ok (shrink { s with slots := kept }) := by
  have htop : top { s with slots := kept ++ left } = kept.length + left.length :=
    List.length_append
  have hframe : ¬frameLength { s with slots := kept ++ left } < left.length := by
    unfold frameLength
    rw [htop]
    dsimp only
    omega
  unfold pop
  rw [if_neg hframe, htop, Nat.add_sub_cancel]
  dsimp only
  rw [List.take_left]

/-- The slots behind the results are popped, as far as the run went. -/
lemma pop_overwriteFrom (hf : s.frame ≤ start) (hs : start ≤ s.top) :
    (s.overwriteFrom start values).pop (s.top - start - values.length) =
      .ok (shrink { s with slots := s.slots.take start ++ values }) := by
  have hkept : s.frame ≤ (s.slots.take start ++ values).length := by
    rw [List.length_append, List.length_take_of_le hs]
    omega
  have hleft : (s.slots.drop (start + values.length)).length = s.top - start - values.length := by
    rw [List.length_drop, Nat.sub_add_eq]
    rfl
  rw [← hleft]
  exact pop_append s hkept

end Stack

namespace Processor

/-- The processor after a command, applied to a run on the slots `below`, came to this. -/
def appliedOn (p : Processor) (below : List Value) : Applied → Executed
  | .done results effects =>
    ⟨{ p with stack := Stack.shrink { p.stack with slots := below ++ results } }, .ok .next,
      effects⟩
  | .failed e left effects =>
    ⟨{ p with stack := { p.stack with slots := below ++ left } }, .error e, effects⟩

variable {p : Processor} {start : Nat} {values : List Value} {arguments : List Argument}

theorem applyFrom_eq (host : Host) (c : RegularCommand) (hf : p.stack.frame ≤ start)
    (hs : start ≤ p.stack.top) : p.applyFrom host c start =
      p.appliedOn (p.stack.slots.take start) (c.apply host (p.stack.slots.drop start)) := by
  have hlen : (p.stack.slots.drop start).length = p.stack.top - start := List.length_drop
  unfold applyFrom Stack.slotsFrom
  rw [if_pos hs]
  dsimp only
  cases hx : c.apply host (p.stack.slots.drop start) with
  | done results effects =>
    rw [hlen]
    dsimp only
    rw [Stack.pop_overwriteFrom hf hs]
    rfl
  | failed e left effects =>
    have hl := (RegularCommand.leaves_of_failed hx).length_eq
    rw [hlen] at hl
    dsimp only
    rw [Stack.overwriteFrom_of_length hs hl]
    rfl

lemma applyRegular_frame (host : Host) (c : RegularCommand) (hp : p.stack.Framed) :
    p.applyRegular host c [] =
      p.appliedOn (p.stack.slots.take p.stack.frame) (c.apply host p.stack.frameSlots) :=
  applyFrom_eq host c (Nat.le_refl _) hp

lemma applyRegular_unresolved (host : Host) (c : RegularCommand) {e : Error} (ha : arguments ≠ [])
    (hv : p.resolveAll arguments = .error e) :
    p.applyRegular host c arguments = ⟨p, .error e, []⟩ := by
  unfold applyRegular
  rw [if_neg (by simpa using ha), hv]

lemma applyRegular_refused (host : Host) (c : RegularCommand) {e : Error} (ha : arguments ≠ [])
    (hv : p.resolveAll arguments = .ok values) (hr : p.stack.pushValues values = .error e) :
    p.applyRegular host c arguments = ⟨p, .error e, []⟩ := by
  unfold applyRegular
  rw [if_neg (by simpa using ha), hv]
  dsimp only
  rw [hr]

lemma applyRegular_pushed (host : Host) (c : RegularCommand) {room : Stack} (hp : p.stack.Framed)
    (ha : arguments ≠ []) (hv : p.resolveAll arguments = .ok values)
    (hr : p.stack.pushValues values = .ok room) :
    p.applyRegular host c arguments =
      appliedOn { p with stack := room } p.stack.slots (c.apply host values) := by
  obtain ⟨k, rfl⟩ := Stack.pushValues_ok hr
  have htop : p.stack.top ≤ (p.stack.slots ++ values).length := by
    rw [List.length_append]
    exact Nat.le_add_right _ _
  have hx := applyFrom_eq (p := { p with stack := { p.stack with
    slots := p.stack.slots ++ values, capacity := p.stack.capacity * 2 ^ k } }) host c hp htop
  have ht : (p.stack.slots ++ values).take p.stack.top = p.stack.slots := List.take_left
  have hd : (p.stack.slots ++ values).drop p.stack.top = values := List.drop_left
  dsimp only at hx
  rw [ht, hd] at hx
  unfold applyRegular
  rw [if_neg (by simpa using ha), hv]
  dsimp only
  rw [hr]
  exact hx

lemma frameSlots_appliedOn {below : List Value} (hb : below.length = p.stack.frame)
    (x : Applied) : (p.appliedOn below x).processor.stack.frameSlots =
      match x with
      | .done results _ => results
      | .failed _ left _ => left := by
  cases x with
  | done results effects => exact List.drop_left' hb
  | failed e left effects => exact List.drop_left' hb

/-- A command with arguments does the same as the command without any does on a frame that holds
their values: it fails alike, or leaves the same slots, on top of all that were there. The values
are those that the arguments have before any of them is pushed. -/
theorem arguments_agree_with_frame {p q : Processor} {arguments : List Argument}
    {values : List Value} {room : Stack} (hp : p.stack.frame ≤ p.stack.top)
    (ha : arguments ≠ []) (hv : List.Forall₂ (fun a v => p.resolve a = .ok v) arguments values)
    (hr : p.stack.pushValues values = .ok room) (hq : q.stack.frameSlots = values)
    (host : Host) (c : RegularCommand) (m n : Nat) :
    let x := p.execute host m ⟨.regular c, arguments⟩
    let y := q.execute host n ⟨.regular c, []⟩
    x.outcome = y.outcome ∧ x.effects = y.effects ∧
      x.processor.stack.slots = p.stack.slots ++ y.processor.stack.frameSlots ∧
      x.processor.stack.frame = p.stack.frame := by
  intro x y
  have hpos : 0 < q.stack.frameSlots.length := by
    rw [hq, ← hv.length_eq]
    exact List.length_pos_iff.2 ha
  have hf : q.stack.frame ≤ q.stack.top := by
    rw [Stack.frameSlots, List.length_drop] at hpos
    unfold Stack.top
    omega
  have hx : x = appliedOn { p with stack := room } p.stack.slots (c.apply host values) :=
    applyRegular_pushed host c hp ha (mapM_eq_ok_iff.2 hv) hr
  have hy : y = q.appliedOn (q.stack.slots.take q.stack.frame) (c.apply host values) := by
    rw [← hq]
    exact applyRegular_frame host c hf
  have hframe : room.frame = p.stack.frame := (Stack.Keeps.pushValues hp hr).frame
  rw [hx, hy, frameSlots_appliedOn (List.length_take_of_le hf)]
  cases c.apply host values with
  | done results effects => exact ⟨rfl, rfl, rfl, hframe⟩
  | failed e left effects => exact ⟨rfl, rfl, rfl, hframe⟩

/-- An object that stands in the frame is run on its neighbour, read from the top, and on a number;
it says to keep more values than there are. -/
theorem arguments_agree_with_frame_called :
    let o : Value := .object (.plugin 1 "script")
    let host : Host := ⟨fun _ _ => some ⟨[.bool true], .ok 9⟩, fun _ _ => .error .missing⟩
    let p : Processor := ⟨⟨[.int 5, o, .int 7], 1, 4, 4⟩, none, 0, 0, 0, false, .running⟩
    let q : Processor := ⟨⟨[o, .int 7, .int 8], 0, 4, 4⟩, none, 0, 0, 0, false, .running⟩
    let arguments : List Argument := [.position 1, .position (-1), .direct (.int 8)]
    let x := p.execute host 1 ⟨.regular .call, arguments⟩
    let y := q.execute host 1 ⟨.regular .call, []⟩
    List.Forall₂ (fun a v => p.resolve a = .ok v) arguments q.stack.frameSlots ∧
      (x.outcome = y.outcome ∧ x.effects = y.effects ∧
        x.processor.stack.slots = p.stack.slots ++ y.processor.stack.frameSlots ∧
        x.processor.stack.frame = p.stack.frame) ∧
      x.processor.stack.slots = [.int 5, o, .int 7, .bool true, .int 8] := by
  intro o host p q arguments x y
  have hv : List.Forall₂ (fun a v => p.resolve a = .ok v) arguments q.stack.frameSlots :=
    .cons rfl (.cons rfl (.cons rfl .nil))
  obtain ⟨room, hr⟩ : ∃ room, p.stack.pushValues q.stack.frameSlots = .ok room := by
    have hd : Stack.doubled 6 4 ≤ 4 * 2 ^ 1 := Stack.doubled_le (by decide)
    rw [Stack.pushValues_eq, if_pos (.inr (Nat.le_trans hd (by decide)))]
    exact ⟨_, rfl⟩
  have h := arguments_agree_with_frame (p := p) (q := q) (by decide) (by simp [arguments]) hv hr rfl
    host .call 1 1
  refine ⟨hv, h, ?_⟩
  rw [h.2.2.1]
  rfl

end Processor

end TransactionEngine
