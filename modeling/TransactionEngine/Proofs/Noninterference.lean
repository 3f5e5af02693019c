import TransactionEngine.Proofs.Halting
import TransactionEngine.Proofs.HiddenSlots

/-!
# What a program can learn

Every statement and every run does the same on a veiled stack as on the stack itself, and what
can be seen of a processor stays the same under the veil. So processors on two stacks that only
differ in the values below their frames cannot be told apart, by their results, their errors, or
anything that they show on the way.
-/

namespace TransactionEngine

namespace Processor

/-- The processor on a veiled stack. -/
def veiled (p : Processor) : Processor :=
  { p with stack := p.stack.veiled }

variable {p : Processor} (hp : p.stack.Framed)

include hp

lemma resolveIndex_veiled (position : Int64) :
    p.veiled.resolveIndex position = p.resolveIndex position := by
  unfold resolveIndex
  change (p.stack.veiled.indexOf position >>= fun index => _) = _
  rw [Stack.indexOf_veiled hp]
  rfl

lemma resolve_veiled (a : Argument) : p.veiled.resolve a = p.resolve a := by
  cases a with
  | direct v => rfl
  | position position =>
    unfold resolve
    dsimp only
    rw [resolveIndex_veiled hp]
    cases hi : p.resolveIndex position with
    | error e => rfl
    | ok index =>
      have hget : p.veiled.stack.get? index = p.stack.get? index :=
        Stack.get?_veiled (le_of_resolveIndex hi)
      have htop : p.veiled.stack.top = p.stack.top := Stack.top_veiled hp
      simp only [bind, Except.bind, hget, htop]

lemma resolveAll_veiled (arguments : List Argument) :
    p.veiled.resolveAll arguments = p.resolveAll arguments := by
  unfold resolveAll
  rw [funext (resolve_veiled hp)]

end Processor

namespace SpecialCommand

variable {p : Processor}

/-- What a special command gives, under the veil. -/
def veiledResult (x : Except Error (Processor × Flow)) : Except Error (Processor × Flow) :=
  x.map fun y => (y.1.veiled, y.2)

lemma onStack_veiled (p : Processor) (stack : Except Error Stack) :
    onStack p.veiled (stack.map Stack.veiled) = veiledResult (onStack p stack) := by
  cases stack <;> rfl

lemma jumpBy_veiled (length : Nat) (delta : Int64) :
    jumpBy p.veiled length delta = veiledResult (jumpBy p length delta) := by
  by_cases hd : 0 ≤ delta.toInt
  · rw [jumpBy_forward hd, jumpBy_forward hd]
    change (if p.pc + delta.toInt.toNat < length then _ else _) = _
    by_cases hl : p.pc + delta.toInt.toNat < length
    · rw [if_pos hl, if_pos hl]
      rfl
    · rw [if_neg hl, if_neg hl]
      rfl
  · rw [jumpBy_backward (Int.not_le.1 hd), jumpBy_backward (Int.not_le.1 hd)]
    rfl

variable (hp : p.stack.Framed)

include hp

lemma count_veiled (c : SpecialCommand) (a : Argument) : count c p.veiled a = count c p a := by
  unfold count
  rw [Processor.resolve_veiled hp]

lemma push_veiled (arguments : List Argument) :
    applyPush p.veiled arguments = veiledResult (applyPush p arguments) := by
  have hpush (n : Nat) : onStack p.veiled (p.stack.veiled.push n) =
      veiledResult (onStack p (p.stack.push n)) := by
    rw [Stack.push_veiled hp, onStack_veiled]
  cases arguments with
  | nil => exact hpush 1
  | cons first values =>
    unfold applyPush
    dsimp only
    rw [count_veiled hp]
    cases count push p first with
    | error e => rfl
    | ok n =>
      change (if values.isEmpty then _ else _) = veiledResult (if values.isEmpty then _ else _)
      by_cases hv : values.isEmpty
      · rw [if_pos hv, if_pos hv]
        exact hpush n
      · rw [if_neg hv, if_neg hv]
        by_cases hn : values.length ≠ n
        · rw [if_pos hn, if_pos hn]
          rfl
        · rw [if_neg hn, if_neg hn, Processor.resolveAll_veiled hp]
          cases p.resolveAll values with
          | error e => rfl
          | ok vs =>
            change onStack p.veiled (p.stack.veiled.pushValues vs) = _
            rw [Stack.pushValues_veiled hp, onStack_veiled]
            rfl

lemma pop_veiled (arguments : List Argument) :
    applyPop p.veiled arguments = veiledResult (applyPop p arguments) := by
  have hpop (n : Nat) : onStack p.veiled (p.stack.veiled.pop n) =
      veiledResult (onStack p (p.stack.pop n)) := by
    rw [Stack.pop_veiled hp, onStack_veiled]
  match arguments with
  | [] => exact hpop 1
  | [a] =>
    unfold applyPop
    dsimp only
    rw [count_veiled hp]
    cases count pop p a with
    | error e => rfl
    | ok n => exact hpop n
  | _ :: _ :: _ => rfl

lemma store_veiled (arguments : List Argument) :
    applyStore p.veiled arguments = veiledResult (applyStore p arguments) := by
  match arguments with
  | [source, .position target] =>
    unfold applyStore
    dsimp only
    rw [Processor.resolve_veiled hp, Processor.resolveIndex_veiled hp]
    cases p.resolve source with
    | error e => rfl
    | ok v =>
      cases hi : p.resolveIndex target with
      | error e => rfl
      | ok index =>
        have hset := Stack.set_veiled hp (Processor.le_of_resolveIndex hi) v
        change Except.ok (({ p with stack := p.stack.veiled.set index v } : Processor), Flow.next) = _
        rw [hset]
        rfl
  | [_, .direct _] => rfl
  | [] => rfl
  | [_] => rfl
  | _ :: _ :: _ :: _ => simp [applyStore, veiledResult, Except.map]

lemma jump_veiled (length : Nat) (arguments : List Argument) :
    applyJump p.veiled length arguments = veiledResult (applyJump p length arguments) := by
  match arguments with
  | [a] =>
    unfold applyJump
    dsimp only
    rw [Processor.resolve_veiled hp]
    cases p.resolve a with
    | error e => rfl
    | ok v =>
      change (v.asInt >>= fun delta => _) = veiledResult (v.asInt >>= fun delta => _)
      cases v.asInt with
      | error e => rfl
      | ok delta => exact jumpBy_veiled length delta
  | [] => rfl
  | _ :: _ :: _ => rfl

lemma jumpIf_veiled (length : Nat) (arguments : List Argument) :
    applyJumpIf p.veiled length arguments = veiledResult (applyJumpIf p length arguments) := by
  match arguments with
  | [condition, a] =>
    unfold applyJumpIf
    dsimp only
    rw [Processor.resolve_veiled hp, Processor.resolve_veiled hp]
    cases p.resolve a with
    | error e => rfl
    | ok v =>
      change (v.asInt >>= fun delta => _) = veiledResult (v.asInt >>= fun delta => _)
      cases v.asInt with
      | error e => rfl
      | ok delta =>
        cases p.resolve condition with
        | error e => rfl
        | ok w =>
          change (w.truthy >>= fun holds => _) = veiledResult (w.truthy >>= fun holds => _)
          cases w.truthy with
          | error e => rfl
          | ok holds =>
            cases holds with
            | true => exact jumpBy_veiled length delta
            | false => rfl
  | [] => rfl
  | [_] => rfl
  | _ :: _ :: _ :: _ => rfl

theorem apply_veiled (c : SpecialCommand) (length : Nat) (arguments : List Argument) :
    c.apply p.veiled length arguments = veiledResult (c.apply p length arguments) := by
  cases c with
  | context =>
    cases arguments with
    | nil =>
      change onStack p.veiled (p.stack.veiled.pushValues _) = _
      rw [Stack.pushValues_veiled hp, onStack_veiled]
      rfl
    | cons => rfl
  | exit => cases arguments <;> rfl
  | jump => exact jump_veiled hp length arguments
  | jumpIf => exact jumpIf_veiled hp length arguments
  | pop => exact pop_veiled hp arguments
  | push => exact push_veiled hp arguments
  | store => exact store_veiled hp arguments

end SpecialCommand

/-! ### Runs under the veil -/

def Executed.veiled (x : Executed) : Executed :=
  { x with processor := x.processor.veiled }

def Run.veiled (r : Run) : Run :=
  { r with processor := r.processor.veiled }

def Processor.Step.veiled : Step → Step
  | .ended r => .ended r.veiled
  | .on q effects => .on q.veiled effects

namespace Processor

variable {p : Processor}

lemma executedOn_veiled (p : Processor) (stack : Except Error Stack) (effects : List Effect) :
    p.veiled.executedOn (stack.map Stack.veiled) effects = (p.executedOn stack effects).veiled := by
  cases stack <;> rfl

lemma applyFrom_veiled (hp : p.stack.Framed) (host : Host) (c : RegularCommand) {start : Nat}
    (hi : p.stack.frame ≤ start) :
    p.veiled.applyFrom host c start = (p.applyFrom host c start).veiled := by
  have hslots : p.veiled.stack.slotsFrom start = p.stack.slotsFrom start :=
    Stack.slotsFrom_veiled hp hi
  unfold applyFrom
  rw [hslots]
  cases p.stack.slotsFrom start with
  | error e => rfl
  | ok run =>
    dsimp only
    have hw (values : List Value) : p.veiled.stack.overwriteFrom start values =
        (p.stack.overwriteFrom start values).veiled := Stack.overwriteFrom_veiled hp hi values
    cases c.apply host run with
    | failed e run effects =>
      dsimp only
      rw [hw]
      rfl
    | done results effects =>
      dsimp only
      have hf := (Stack.Keeps.overwriteFrom hp hi results).framed hp
      rw [hw, Stack.pop_veiled hf]
      exact executedOn_veiled { p with stack := p.stack.overwriteFrom start results } _ effects

lemma applyRegular_veiled (hp : p.stack.Framed) (host : Host) (c : RegularCommand)
    (arguments : List Argument) :
    p.veiled.applyRegular host c arguments = (p.applyRegular host c arguments).veiled := by
  unfold applyRegular
  by_cases ha : arguments.isEmpty
  · rw [if_pos ha, if_pos ha]
    exact applyFrom_veiled hp host c (Nat.le_refl _)
  · rw [if_neg ha, if_neg ha, resolveAll_veiled hp]
    cases p.resolveAll arguments with
    | error e => rfl
    | ok values =>
      have hpush : p.veiled.stack.pushValues values =
          (p.stack.pushValues values).map Stack.veiled := Stack.pushValues_veiled hp values
      dsimp only
      rw [hpush]
      cases hs : p.stack.pushValues values with
      | error e => rfl
      | ok stack =>
        have hk := Stack.Keeps.pushValues hp hs
        have hi : stack.frame ≤ p.stack.top := le_of_eq_of_le hk.frame hp
        change applyFrom host (veiled { p with stack }) c p.stack.veiled.top = _
        rw [Stack.top_veiled hp]
        exact applyFrom_veiled (p := { p with stack }) (hk.framed hp) host c hi

theorem execute_veiled (hp : p.stack.Framed) (host : Host) (length : Nat) (s : Statement) :
    p.veiled.execute host length s = (p.execute host length s).veiled := by
  obtain ⟨c, arguments⟩ := s
  cases c with
  | regular c => exact applyRegular_veiled hp host c arguments
  | special c =>
    unfold execute
    dsimp only
    rw [SpecialCommand.apply_veiled hp]
    cases c.apply p length arguments <;> rfl

lemma stepWith_veiled (hp : p.stack.Framed) (host : Host) (length : Nat) (s : Statement) :
    p.veiled.stepWith host length s = (p.stepWith host length s).veiled := by
  have hq := (execute_moves hp host length s).keeps.1.framed hp
  unfold stepWith
  rw [execute_veiled hp]
  generalize p.execute host length s = x at hq
  obtain ⟨q, outcome, effects⟩ := x
  dsimp only [Executed.veiled]
  cases outcome with
  | error e => rfl
  | ok flow =>
    have hr : q.veiled.stack.result = q.stack.result := Stack.result_veiled hq
    dsimp only
    rw [hr]
    change (if 0 < q.spill then _ else _) = Step.veiled (if 0 < q.spill then _ else _)
    by_cases hspill : 0 < q.spill
    · rw [if_pos hspill, if_pos hspill]
      rfl
    · rw [if_neg hspill, if_neg hspill]
      cases flow <;> rfl

theorem step_veiled (hp : p.stack.Framed) (host : Host) (program : List Statement) :
    p.veiled.step host program = (p.step host program).veiled := by
  have hpc : p.veiled.pc = p.pc := rfl
  unfold step
  rw [hpc]
  cases program[p.pc]? with
  | none =>
    have hr : p.veiled.stack.result = p.stack.result := Stack.result_veiled hp
    dsimp only [Step.veiled, finish, Run.veiled]
    rw [hr]
    rfl
  | some s => exact stepWith_veiled hp host program.length s

theorem runOn_veiled (hp : p.stack.Framed) (host : Host) (program : List Statement) :
    p.veiled.runOn host program = (p.runOn host program).map Run.veiled := by
  induction hn : program.length - p.pc using Nat.strongRecOn generalizing p with
  | ind n ih =>
    have hv := step_veiled hp host program
    cases hs : p.step host program with
    | ended r =>
      rw [hs] at hv
      rw [runOn_ended hs, runOn_ended hv]
      rfl
    | on q effects =>
      rw [hs] at hv
      obtain ⟨hpc, -, -⟩ := step_on hp hs
      rw [runOn_on hs, runOn_on hv]
      change (if p.pc < q.pc then _ else _) = _
      by_cases hq : p.pc < q.pc
      · have hrest := ih (program.length - q.pc) (by omega) ((step_on_keeps hp hs).1.framed hp) rfl
        rw [if_pos hq, if_pos hq, hrest, Option.map_map, Option.map_map]
        rfl
      · rw [if_neg hq, if_neg hq]
        rfl

/-- What can be seen of a processor. -/
structure Sight where
  pc : Nat
  exitRequested : Bool
  phase : Phase
  frame : List Value

def sight (p : Processor) : Sight :=
  ⟨p.pc, p.exitRequested, p.phase, p.stack.frameSlots⟩

/-- What can be seen of a step or of a whole run. There is no outcome if the run goes on. -/
structure Report where
  outcome : Option (Except Failure Halt)
  effects : List Effect
  sight : Sight

def Step.report : Step → Report
  | .ended r => ⟨some r.outcome, r.effects, r.processor.sight⟩
  | .on q effects => ⟨none, effects, q.sight⟩

/-- What is seen when a processor is run once for each host. The last run may not end. -/
def reports (program : List Statement) : Processor → List Host → List (Option Report)
  | _, [] => []
  | p, host :: hosts =>
    match p.run host program with
    | none => [none]
    | some r => some (Step.ended r).report :: reports program r.processor hosts

/-- What is seen when a processor makes one step for each host. A run that is over is followed by
the next one. -/
def points (program : List Statement) : Processor → List Host → List Report
  | _, [] => []
  | p, host :: hosts =>
    let x := step host program { p with phase := .running }
    x.report :: points program x.processor hosts

lemma sight_veiled (p : Processor) : p.veiled.sight = p.sight := by
  unfold sight
  congr 1
  exact Stack.frameSlots_veiled p.stack

lemma report_veiled (x : Step) : x.veiled.report = x.report := by
  cases x with
  | ended r =>
    dsimp only [Step.veiled, Step.report, Run.veiled]
    rw [sight_veiled]
  | on q effects =>
    dsimp only [Step.veiled, Step.report]
    rw [sight_veiled]

lemma processor_veiled (x : Step) : x.veiled.processor = x.processor.veiled := by
  cases x <;> rfl

theorem reports_veiled (program : List Statement) (hosts : List Host) (hp : p.stack.Framed) :
    reports program p.veiled hosts = reports program p hosts := by
  induction hosts generalizing p with
  | nil => rfl
  | cons host hosts ih =>
    have hr : p.veiled.run host program = (p.run host program).map Run.veiled :=
      runOn_veiled (p := { p with phase := .running }) hp host program
    unfold reports
    rw [hr]
    cases h : p.run host program with
    | none => rfl
    | some r =>
      obtain ⟨n, hn⟩ := (runOn_eq_some_iff (p := { p with phase := .running }) hp).1 h
      have hk := (halts_keeps (p := { p with phase := .running }) hp hn).1
      have he := report_veiled (.ended r)
      dsimp only [Option.map, Step.veiled] at he ⊢
      rw [he]
      exact congrArg _ (ih (hk.framed hp))

theorem points_veiled (program : List Statement) (hosts : List Host) (hp : p.stack.Framed) :
    points program p.veiled hosts = points program p hosts := by
  induction hosts generalizing p with
  | nil => rfl
  | cons host hosts ih =>
    have hs := step_veiled (p := { p with phase := .running }) hp host program
    have hk := (step_keeps (p := { p with phase := .running }) host program hp).1
    unfold points
    change _ :: _ = _
    dsimp only
    rw [show { p.veiled with phase := Phase.running } = veiled { p with phase := .running } from rfl,
      hs, report_veiled, processor_veiled, ih (hk.framed hp)]

lemma start_veiled {s t : Stack} (htop : s.top = t.top) (hframe : s.frame = t.frame)
    (hroom : s.capacity = t.capacity) (hleast : s.minCapacity = t.minCapacity)
    (context : Option Object) : (start s context).veiled = (start t context).veiled := by
  have h : s.startFrame.2.veiled = t.startFrame.2.veiled := by
    have hd (u : Stack) : u.slots.drop u.top = [] := List.drop_length
    unfold Stack.veiled Stack.frameSlots Stack.startFrame
    dsimp only
    rw [hd, hd, htop, hroom, hleast]
  unfold veiled start
  dsimp only
  rw [h, show s.startFrame.1 = t.startFrame.1 from hframe]

/-- Processors that are started on stacks of one shape show the same in all their runs, and at
every point of them, whatever values lie below their frames. -/
theorem caller_slots_unobservable {s t : Stack} (htop : s.top = t.top) (hframe : s.frame = t.frame)
    (hroom : s.capacity = t.capacity) (hleast : s.minCapacity = t.minCapacity)
    (program : List Statement) (context : Option Object) (hosts : List Host) :
    reports program (start s context) hosts = reports program (start t context) hosts ∧
      points program (start s context) hosts = points program (start t context) hosts := by
  have hs : (start s context).stack.Framed := Stack.framed_startFrame s
  have ht : (start t context).stack.Framed := Stack.framed_startFrame t
  have hv := start_veiled htop hframe hroom hleast context
  constructor
  · rw [← reports_veiled program hosts hs, hv, reports_veiled program hosts ht]
  · rw [← points_veiled program hosts hs, hv, points_veiled program hosts ht]

/-- A program that asks for the caller's number, and one that asks for the caller's text, both
twice. -/
theorem caller_slots_unobservable_reading :
    let s : Stack := ⟨[.int 1, .bool true], 0, 4, 4⟩
    let t : Stack := ⟨[.string "secret", .nil], 0, 4, 4⟩
    let program : List Statement :=
      [⟨.special .push, []⟩, ⟨.regular .add, [.position 0, .direct (.int 1)]⟩]
    (s.top = t.top ∧ s.frame = t.frame ∧ s.capacity = t.capacity ∧
        s.minCapacity = t.minCapacity) ∧
      reports program (start s none) [.silent, .silent] =
        reports program (start t none) [.silent, .silent] ∧
      points program (start s none) [.silent, .silent] =
        points program (start t none) [.silent, .silent] := by
  intro s t program
  exact ⟨⟨rfl, rfl, rfl, rfl⟩,
    caller_slots_unobservable (s := s) (t := t) rfl rfl rfl rfl program none _⟩

end Processor

end TransactionEngine
