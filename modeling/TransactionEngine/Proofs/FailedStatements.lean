import TransactionEngine.Proofs.StatementsInPlace

/-!
# Statements that fail

What a statement that fails leaves of its processor. All but the stack is as it was, and so is the
stack, but for the values of the arguments that a regular command got: they stay on top. An object
that fails may have written to the values that it was run on.
-/

namespace TransactionEngine.Processor

open RegularCommand (Leaves)

/-- What is left of the stack after a statement has failed. -/
inductive Remains (host : Host) (p : Processor) : Statement → Stack → Prop
  | special (c : SpecialCommand) (arguments : List Argument) :
    p.Remains host ⟨.special c, arguments⟩ p.stack
  | unresolved {c : RegularCommand} {arguments : List Argument} {e : Error}
    (hv : p.resolveAll arguments = .error e) : p.Remains host ⟨.regular c, arguments⟩ p.stack
  | refused {c : RegularCommand} {arguments : List Argument} {values : List Value} {e : Error}
    (hv : p.resolveAll arguments = .ok values) (hr : p.stack.pushValues values = .error e) :
    p.Remains host ⟨.regular c, arguments⟩ p.stack
  | pushed {c : RegularCommand} {arguments : List Argument} {values left : List Value}
    (ha : arguments ≠ []) (hv : p.resolveAll arguments = .ok values)
    (hr : p.stack.pushValues values = .ok (p.stack.extended values))
    (hl : Leaves host c values left) :
    p.Remains host ⟨.regular c, arguments⟩
      { p.stack.extended values with slots := p.stack.slots ++ left }
  | frame {c : RegularCommand} {left : List Value} (hl : Leaves host c p.stack.frameSlots left) :
    p.Remains host ⟨.regular c, []⟩
      { p.stack with slots := p.stack.slots.take p.stack.frame ++ left }

variable {host : Host} {length : Nat} {p q : Processor} {s : Statement} {e : Error}
  {effects : List Effect}

lemma extended_of_pushValues {s room : Stack} {values : List Value}
    (h : s.pushValues values = .ok room) : room = s.extended values := by
  rw [Stack.pushValues_eq] at h
  split_ifs at h
  cases h
  rfl

lemma left_of_appliedOn {c : RegularCommand} {run below : List Value}
    (h : p.appliedOn below (c.apply host run) = ⟨q, .error e, effects⟩) :
    ∃ left, Leaves host c run left ∧
      q = { p with stack := { p.stack with slots := below ++ left } } := by
  cases hx : c.apply host run with
  | done results effects =>
    rw [hx] at h
    cases h
  | failed e left effects =>
    rw [hx] at h
    cases h
    exact ⟨left, RegularCommand.leaves_of_failed hx, rfl⟩

/-- A statement that fails leaves the stack in one of the ways that `Remains` lists, and all else as
it was. -/
theorem remains_of_failed (hp : p.stack.Framed)
    (h : p.execute host length s = ⟨q, .error e, effects⟩) :
    q = { p with stack := q.stack } ∧ p.Remains host s q.stack := by
  obtain ⟨command, arguments⟩ := s
  cases command with
  | special c =>
    rw [execute_special] at h
    cases hc : c.apply p length arguments with
    | ok x =>
      rw [hc] at h
      cases h
    | error e =>
      rw [hc] at h
      cases h
      exact ⟨rfl, .special c arguments⟩
  | regular c =>
    change p.applyRegular host c arguments = _ at h
    by_cases ha : arguments = []
    · subst ha
      rw [applyRegular_frame host c hp] at h
      obtain ⟨left, hl, rfl⟩ := left_of_appliedOn h
      exact ⟨rfl, .frame hl⟩
    · cases hv : p.resolveAll arguments with
      | error e =>
        rw [applyRegular_unresolved host c ha hv] at h
        cases h
        exact ⟨rfl, .unresolved hv⟩
      | ok values =>
        cases hr : p.stack.pushValues values with
        | error e =>
          rw [applyRegular_refused host c ha hv hr] at h
          cases h
          exact ⟨rfl, .refused hv hr⟩
        | ok room =>
          rw [applyRegular_pushed host c hp ha hv hr] at h
          obtain rfl := extended_of_pushValues hr
          obtain ⟨left, hl, rfl⟩ := left_of_appliedOn h
          exact ⟨rfl, .pushed ha hv hr hl⟩

/-! ### What remains, by why the statement failed -/

/-- A processor on which a statement has failed. All but its stack is as it was, and the values of the
arguments stay on top of the slots if they were pushed. -/
structure FailedOn (host : Host) (length : Nat) (p : Processor) (s : Statement) (e : Error)
    (effects : List Effect) (q : Processor) : Prop where
  rest : q = { p with stack := q.stack }
  frame : q.stack.frame = p.stack.frame
  special (c : SpecialCommand) (hc : s.command = .special c) : q.stack = p.stack
  bare (ha : s.arguments = []) (hc : s.command ≠ .regular .call) : q.stack = p.stack
  unresolved (e' : Error) (hv : p.resolveAll s.arguments = .error e') : q.stack = p.stack
  refused (values : List Value) (e' : Error) (ha : s.arguments ≠ [])
    (hv : p.resolveAll s.arguments = .ok values) (hr : p.stack.pushValues values = .error e') :
    q.stack = p.stack
  pushed (c : RegularCommand) (values : List Value) (room : Stack) (hc : s.command = .regular c)
    (ha : s.arguments ≠ []) (hv : p.resolveAll s.arguments = .ok values)
    (hr : p.stack.pushValues values = .ok room) :
    ∃ left, Leaves host c values left ∧
      q.stack = { p.stack.extended values with slots := p.stack.slots ++ left }
  called (ha : s.arguments = []) (hc : s.command = .regular .call) :
    ∃ left, Leaves host .call p.stack.frameSlots left ∧
      q.stack = { p.stack with slots := p.stack.slots.take p.stack.frame ++ left }
  halts : p.stepWith host length s =
    .ended ⟨{ q with phase := .failed }, .error ⟨s.command, p.pc, e⟩, effects⟩
  inPlace (hp : p.Sound length) :
    Steps.statement host length s p.begun = .error (.failed e) ⟨q, false, effects⟩

namespace Remains

variable {c : RegularCommand} {arguments : List Argument} {values : List Value} {stack room : Stack}

lemma frame_eq (h : p.Remains host s stack) : stack.frame = p.stack.frame := by
  cases h <;> rfl

lemma eq_of_special {c : SpecialCommand} (h : p.Remains host ⟨.special c, arguments⟩ stack) :
    stack = p.stack := by
  cases h
  rfl

lemma of_bare (h : p.Remains host ⟨.regular c, []⟩ stack) :
    ∃ left, Leaves host c p.stack.frameSlots left ∧
      stack = { p.stack with slots := p.stack.slots.take p.stack.frame ++ left } := by
  have hwhole : p.stack =
      { p.stack with slots := p.stack.slots.take p.stack.frame ++ p.stack.frameSlots } := by
    unfold Stack.frameSlots
    rw [List.take_append_drop]
  cases h with
  | unresolved | refused => exact ⟨_, .whole _, hwhole⟩
  | pushed ha => exact absurd rfl ha
  | frame hl => exact ⟨_, hl, rfl⟩

lemma eq_of_unresolved (h : p.Remains host s stack) (hv : p.resolveAll s.arguments = .error e) :
    stack = p.stack := by
  cases h with
  | special | unresolved | refused => rfl
  | pushed ha hv' =>
    rw [hv'] at hv
    cases hv
  | frame => cases hv

lemma eq_of_refused (h : p.Remains host s stack) (ha : s.arguments ≠ [])
    (hv : p.resolveAll s.arguments = .ok values) (hr : p.stack.pushValues values = .error e) :
    stack = p.stack := by
  cases h with
  | special | unresolved | refused => rfl
  | pushed ha hv' hr' =>
    rw [hv'] at hv
    cases hv
    rw [hr'] at hr
    cases hr
  | frame => exact absurd rfl ha

lemma of_pushed (h : p.Remains host ⟨.regular c, arguments⟩ stack) (ha : arguments ≠ [])
    (hv : p.resolveAll arguments = .ok values) (hr : p.stack.pushValues values = .ok room) :
    ∃ left, Leaves host c values left ∧
      stack = { p.stack.extended values with slots := p.stack.slots ++ left } := by
  cases h with
  | unresolved hv' =>
    rw [hv'] at hv
    cases hv
  | refused hv' hr' =>
    rw [hv'] at hv
    cases hv
    rw [hr'] at hr
    cases hr
  | pushed _ hv' _ hl =>
    rw [hv'] at hv
    cases hv
    exact ⟨_, hl, rfl⟩
  | frame => exact absurd rfl ha

end Remains

/-- A statement that fails leaves all but the stack as it was, and the stack as it was but for the
values of the arguments of a regular command and for what a failing object wrote. -/
theorem failed_statement_leaves (hp : p.stack.frame ≤ p.stack.top)
    (h : p.execute host length s = ⟨q, .error e, effects⟩) :
    FailedOn host length p s e effects q := by
  obtain ⟨hrest, hr⟩ := remains_of_failed hp h
  obtain ⟨command, arguments⟩ := s
  constructor
  case rest => exact hrest
  case frame => exact hr.frame_eq
  case special =>
    rintro c rfl
    exact hr.eq_of_special
  case bare =>
    rintro rfl hc
    cases command with
    | special c => exact hr.eq_of_special
    | regular c =>
      obtain ⟨left, hl, hs⟩ := hr.of_bare
      have hne : c ≠ .call := fun hcall => hc (congrArg Command.regular hcall)
      rw [hs, hl.eq_of_ne hne, Stack.frameSlots, List.take_append_drop]
  case unresolved => exact fun _ => hr.eq_of_unresolved
  case refused => exact fun _ _ => hr.eq_of_refused
  case pushed =>
    rintro c values room rfl ha hv hroom
    exact hr.of_pushed ha hv hroom
  case called =>
    rintro rfl rfl
    exact hr.of_bare
  case halts =>
    have hpc : q.pc = p.pc := by rw [hrest]
    unfold stepWith
    rw [h]
    dsimp only
    rw [hpc]
  case inPlace =>
    intro hsound
    rw [Steps.statement_eq hsound, h]
    rfl

/-- An object writes to both of its arguments before it fails; the slot that one of them was read
from stays as it is. -/
theorem failed_statement_leaves_written :
    let o : Value := .object (.plugin 1 "script")
    let host : Host :=
      ⟨fun _ _ => some ⟨[.bool true, .nil], .error .storeIntoLiteral⟩, fun _ _ => .error .missing⟩
    let p : Processor := ⟨⟨[.int 5, o, .int 7], 1, 8, 4⟩, none, 0, 0, 0, false, .running⟩
    let q (slots : List Value) : Processor := ⟨⟨slots, 1, 8, 4⟩, none, 0, 0, 0, false, .running⟩
    let s : Statement := ⟨.regular .call, [.position 1, .position (-1), .direct (.int 8)]⟩
    ∃ slots, p.execute host 1 s = ⟨q slots, .error .storeIntoLiteral, [.ran 1]⟩ ∧
      FailedOn host 1 p s .storeIntoLiteral [.ran 1] (q slots) ∧
      slots = [.int 5, o, .int 7, o, .bool true, .nil] := by
  intro o host p q s
  have h : p.execute host 1 s = ⟨q [.int 5, o, .int 7, o, .bool true, .nil],
    .error .storeIntoLiteral, [.ran 1]⟩ := rfl
  exact ⟨_, h, failed_statement_leaves (by decide) h, rfl⟩

end TransactionEngine.Processor
