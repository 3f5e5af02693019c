import TransactionEngine.Processor.Run
import TransactionEngine.Proofs.Outcomes
import TransactionEngine.Proofs.StackFrames

/-!
# What a statement does

A statement works in the frame, goes forward, leaves the program or asks for the end. `Moves`
lists everything that it can do to a processor, and `execute_moves` says that each statement does
one of these things, whatever the outside answers.
-/

namespace TransactionEngine

lemma Value.eq_int_of_asInt {v : Value} {n : Int64} (h : v.asInt = .ok n) : v = .int n := by
  cases v <;> cases h
  rfl

namespace Processor

/-- The statement is a jump over `delta` statements, or such a jump under a condition that
holds. -/
inductive Jumps (p : Processor) : Statement → Int64 → Prop
  | jump {a : Argument} {delta : Int64} (ha : p.resolve a = .ok (.int delta)) :
    p.Jumps ⟨.special .jump, [a]⟩ delta
  | jumpIf {condition a : Argument} {delta : Int64} {v : Value}
    (ha : p.resolve a = .ok (.int delta)) (hc : p.resolve condition = .ok v)
    (hv : v.truthy = .ok true) : p.Jumps ⟨.special .jumpIf, [condition, a]⟩ delta

/-- What a statement can do to a processor in a program of `length` statements, and what comes
of it. -/
inductive Moves (p : Processor) (length : Nat) (s : Statement) :
    Processor → Except Error Flow → Prop
  | failed {stack : Stack} (hk : p.stack.Keeps stack) (e : Error) :
    p.Moves length s { p with stack } (.error e)
  | worked {stack : Stack} (hk : p.stack.Keeps stack) :
    p.Moves length s { p with stack } (.ok .next)
  | jumped {delta : Int64} (hj : p.Jumps s delta) (hd : 0 ≤ delta.toInt)
    (hl : p.pc + delta.toInt.toNat < length) :
    p.Moves length s { p with pc := p.pc + delta.toInt.toNat } (.ok .jumped)
  | left {delta : Int64} (hj : p.Jumps s delta) (hd : 0 ≤ delta.toInt)
    (hl : length ≤ p.pc + delta.toInt.toNat) :
    p.Moves length s { p with spill := p.pc + delta.toInt.toNat - length + 1 } (.ok .next)
  | exited : p.Moves length s { p with exitRequested := true } (.ok .next)

lemma le_of_resolveIndex {p : Processor} {position : Int64} {index : Nat}
    (h : p.resolveIndex position = .ok index) : p.stack.frame ≤ index := by
  obtain ⟨i, -, hi⟩ := ok_of_bind h
  by_cases hf : i < p.stack.frame
  · rw [if_pos hf] at hi
    cases hi
  · rw [if_neg hf] at hi
    cases hi
    exact Nat.le_of_not_lt hf

lemma landing_cases {p : Processor} {length : Nat} {delta : Int64} {landing : Landing}
    (h : p.landing length delta = .ok landing) :
    (∃ target, landing = .inside target ∧ target < length) ∨
      ∃ spill, landing = .outside spill ∧ 0 < spill := by
  unfold Processor.landing at h
  by_cases hd : delta.toInt < 0
  · rw [if_pos hd] at h
    cases h
  · rw [if_neg hd] at h
    dsimp only at h
    by_cases hl : p.pc + delta.toInt.toNat < length
    · rw [if_pos hl] at h
      cases h
      exact .inl ⟨_, rfl, hl⟩
    · rw [if_neg hl] at h
      cases h
      exact .inr ⟨_, rfl, Nat.succ_pos _⟩

end Processor

namespace SpecialCommand

open Processor (Jumps Moves)

variable {p q : Processor} {length : Nat} {flow : Flow}

lemma jumpBy_forward {delta : Int64} (hd : 0 ≤ delta.toInt) :
    jumpBy p length delta =
      if p.pc + delta.toInt.toNat < length then
        .ok ({ p with pc := p.pc + delta.toInt.toNat }, .jumped)
      else .ok ({ p with spill := p.pc + delta.toInt.toNat - length + 1 }, .next) := by
  unfold jumpBy Processor.landing
  rw [if_neg (Int.not_lt.2 hd)]
  dsimp only
  by_cases hl : p.pc + delta.toInt.toNat < length
  · rw [if_pos hl, if_pos hl]
    rfl
  · rw [if_neg hl, if_neg hl]
    rfl

lemma jumpBy_backward {delta : Int64} (hd : delta.toInt < 0) :
    jumpBy p length delta = .error (.backwardsJump delta) := by
  unfold jumpBy Processor.landing
  rw [if_pos hd]
  rfl

lemma moves_of_jumpBy {s : Statement} {delta : Int64} (hj : p.Jumps s delta)
    (h : jumpBy p length delta = .ok (q, flow)) : p.Moves length s q (.ok flow) := by
  by_cases hd : 0 ≤ delta.toInt
  · rw [jumpBy_forward hd] at h
    by_cases hl : p.pc + delta.toInt.toNat < length
    · rw [if_pos hl] at h
      cases h
      exact .jumped hj hd hl
    · rw [if_neg hl] at h
      cases h
      exact .left hj hd (Nat.le_of_not_lt hl)
  · rw [jumpBy_backward (Int.not_le.1 hd)] at h
    cases h

lemma moves_of_onStack {s : Statement} {stack : Except Error Stack}
    (hk : ∀ t, stack = .ok t → p.stack.Keeps t) (h : onStack p stack = .ok (q, flow)) :
    p.Moves length s q (.ok flow) := by
  obtain ⟨t, ht, h⟩ := ok_of_bind h
  cases h
  exact .worked (hk t ht)

variable (hp : p.stack.Framed)

include hp

lemma moves_of_push {s : Statement} {arguments : List Argument}
    (h : applyPush p arguments = .ok (q, flow)) : p.Moves length s q (.ok flow) := by
  have hpush (n : Nat) (t : Stack) (ht : p.stack.push n = .ok t) : p.stack.Keeps t := by
    rw [Stack.push_eq_pushValues] at ht
    exact .pushValues hp ht
  cases arguments with
  | nil => exact moves_of_onStack (hpush 1) h
  | cons first values =>
    obtain ⟨n, -, h⟩ := ok_of_bind h
    by_cases hv : values.isEmpty
    · rw [if_pos hv] at h
      exact moves_of_onStack (hpush n) h
    · rw [if_neg hv] at h
      by_cases hn : values.length ≠ n
      · rw [if_pos hn] at h
        cases h
      · rw [if_neg hn] at h
        obtain ⟨vs, -, h⟩ := ok_of_bind h
        exact moves_of_onStack (fun t ht => .pushValues hp ht) h

lemma moves_of_pop {s : Statement} {arguments : List Argument}
    (h : applyPop p arguments = .ok (q, flow)) : p.Moves length s q (.ok flow) := by
  match arguments with
  | [] => exact moves_of_onStack (fun t ht => .pop hp ht) h
  | [a] =>
    obtain ⟨n, -, h⟩ := ok_of_bind h
    exact moves_of_onStack (fun t ht => .pop hp ht) h
  | _ :: _ :: _ => cases h

omit hp in
lemma moves_of_store {s : Statement} {arguments : List Argument}
    (h : applyStore p arguments = .ok (q, flow)) : p.Moves length s q (.ok flow) := by
  match arguments with
  | [source, .position target] =>
    obtain ⟨v, -, h⟩ := ok_of_bind h
    obtain ⟨index, hi, h⟩ := ok_of_bind h
    cases h
    exact .worked (.set (Processor.le_of_resolveIndex hi) v)
  | [_, .direct _] => cases h
  | [] => cases h
  | [_] => cases h
  | _ :: _ :: _ :: _ => simp [applyStore] at h

omit hp in
lemma moves_of_jump {arguments : List Argument}
    (h : applyJump p length arguments = .ok (q, flow)) :
    p.Moves length ⟨.special .jump, arguments⟩ q (.ok flow) := by
  match arguments with
  | [a] =>
    obtain ⟨v, ha, h⟩ := ok_of_bind h
    obtain ⟨delta, hv, h⟩ := ok_of_bind h
    rw [Value.eq_int_of_asInt hv] at ha
    exact moves_of_jumpBy (.jump ha) h
  | [] => cases h
  | _ :: _ :: _ => cases h

omit hp in
lemma moves_of_jumpIf {arguments : List Argument}
    (h : applyJumpIf p length arguments = .ok (q, flow)) :
    p.Moves length ⟨.special .jumpIf, arguments⟩ q (.ok flow) := by
  match arguments with
  | [condition, a] =>
    obtain ⟨v, ha, h⟩ := ok_of_bind h
    obtain ⟨delta, hv, h⟩ := ok_of_bind h
    obtain ⟨w, hc, h⟩ := ok_of_bind h
    obtain ⟨holds, hw, h⟩ := ok_of_bind h
    rw [Value.eq_int_of_asInt hv] at ha
    cases holds with
    | true => exact moves_of_jumpBy (.jumpIf ha hc hw) h
    | false =>
      cases h
      exact .worked (.refl p.stack)
  | [] => cases h
  | [_] => cases h
  | _ :: _ :: _ :: _ => cases h

theorem apply_moves {c : SpecialCommand} {arguments : List Argument}
    (h : c.apply p length arguments = .ok (q, flow)) :
    p.Moves length ⟨.special c, arguments⟩ q (.ok flow) := by
  cases c with
  | context =>
    cases arguments with
    | nil => exact moves_of_onStack (fun t ht => .pushValues hp ht) h
    | cons => cases h
  | exit =>
    cases arguments with
    | nil =>
      cases h
      exact .exited
    | cons => cases h
  | jump => exact moves_of_jump h
  | jumpIf => exact moves_of_jumpIf h
  | pop => exact moves_of_pop hp h
  | push => exact moves_of_push hp h
  | store => exact moves_of_store h

end SpecialCommand

namespace Processor

variable {p : Processor} (hp : p.stack.Framed)

include hp

lemma applyFrom_keeps (host : Host) (c : RegularCommand) {start : Nat}
    (hi : p.stack.frame ≤ start) :
    ∃ stack, p.stack.Keeps stack ∧ (p.applyFrom host c start).processor = { p with stack } ∧
      (p.applyFrom host c start).outcome ≠ .ok .jumped := by
  unfold applyFrom
  cases p.stack.slotsFrom start with
  | error e => exact ⟨p.stack, .refl _, rfl, by simp⟩
  | ok run =>
    dsimp only
    cases c.apply host run with
    | failed e run effects => exact ⟨_, .overwriteFrom hp hi run, rfl, by simp⟩
    | done results effects =>
      have hw := Stack.Keeps.overwriteFrom hp hi results
      dsimp only
      cases hs : (p.stack.overwriteFrom start results).pop (run.length - results.length) with
      | error e => exact ⟨_, hw, rfl, by simp [executedOn]⟩
      | ok stack => exact ⟨stack, hw.trans (.pop (hw.framed hp) hs), rfl, by simp [executedOn]⟩

lemma applyRegular_keeps (host : Host) (c : RegularCommand) (arguments : List Argument) :
    ∃ stack, p.stack.Keeps stack ∧
      (p.applyRegular host c arguments).processor = { p with stack } ∧
      (p.applyRegular host c arguments).outcome ≠ .ok .jumped := by
  unfold applyRegular
  by_cases ha : arguments.isEmpty
  · rw [if_pos ha]
    exact applyFrom_keeps hp host c (Nat.le_refl _)
  · rw [if_neg ha]
    cases p.resolveAll arguments with
    | error e => exact ⟨p.stack, .refl _, rfl, by simp⟩
    | ok values =>
      dsimp only
      cases hs : p.stack.pushValues values with
      | error e => exact ⟨p.stack, .refl _, rfl, by simp⟩
      | ok stack =>
        have hk := Stack.Keeps.pushValues hp hs
        have hi : stack.frame ≤ p.stack.top := le_of_eq_of_le hk.frame hp
        obtain ⟨t, ht, he, hj⟩ :=
          applyFrom_keeps (p := { p with stack }) (hk.framed hp) host c hi
        exact ⟨t, hk.trans ht, he, hj⟩

/-- Every statement does one of the things that `Moves` lists. -/
theorem execute_moves (host : Host) (length : Nat) (s : Statement) :
    p.Moves length s (p.execute host length s).processor (p.execute host length s).outcome := by
  obtain ⟨c, arguments⟩ := s
  cases c with
  | regular c =>
    obtain ⟨stack, hk, he, hj⟩ := applyRegular_keeps hp host c arguments
    change p.Moves length _ (p.applyRegular host c arguments).processor
      (p.applyRegular host c arguments).outcome
    rw [he]
    cases ho : (p.applyRegular host c arguments).outcome with
    | error e => exact .failed hk e
    | ok flow =>
      cases flow with
      | next => exact .worked hk
      | jumped => exact absurd ho hj
  | special c =>
    unfold execute
    dsimp only
    cases hx : c.apply p length arguments with
    | error e => exact .failed (.refl p.stack) e
    | ok x => exact SpecialCommand.apply_moves hp hx

end Processor

end TransactionEngine
