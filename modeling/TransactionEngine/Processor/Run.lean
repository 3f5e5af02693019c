import TransactionEngine.Command.Regular
import TransactionEngine.Processor.Special

/-! # Runs

A run executes statements until the program ends, a statement fails or a jump leaves the program.
Jumps go forward, so a run ends unless a jump leads back to itself: then the same statement is
executed in the same state for ever.
-/

namespace TransactionEngine

/-- How a run ended well: after the last statement, or by a jump that left the program; the value is
the topmost one of the frame. -/
inductive Halt where
  | done (value : Option Value)
  | jumpedOut (spill : Nat) (value : Option Value)

def Halt.value : Halt → Option Value
  | done value => value
  | jumpedOut _ value => value

/-- The statement that failed, and why. -/
structure Failure where
  command : Command
  pc : Nat
  error : Error
deriving DecidableEq

def Failure.display (f : Failure) : String :=
  f.command.name ++ " (statement " ++ toString f.pc ++ "): " ++ f.error.display

structure Executed where
  processor : Processor
  outcome : Except Error Flow
  effects : List Effect

structure Run where
  processor : Processor
  outcome : Except Failure Halt
  effects : List Effect

def Run.after (effects : List Effect) (r : Run) : Run :=
  { r with effects := effects ++ r.effects }

namespace Processor

/-- The processor on another stack, unless the stack refused. -/
def executedOn (p : Processor) (stack : Except Error Stack) (effects : List Effect) : Executed :=
  match stack with
  | .ok stack => ⟨{ p with stack }, .ok .next, effects⟩
  | .error e => ⟨p, .error e, effects⟩

/-- Applies a regular command to the slots from `start` up, and drops those that hold no result. -/
def applyFrom (host : Host) (p : Processor) (c : RegularCommand) (start : Nat) : Executed :=
  match p.stack.slotsFrom start with
  | .error e => ⟨p, .error e, []⟩
  | .ok run =>
    match c.apply host run with
    | .done results effects =>
      let stack := p.stack.overwriteFrom start results
      { p with stack }.executedOn (stack.pop (run.length - results.length)) effects
    | .failed e run effects =>
      ⟨{ p with stack := p.stack.overwriteFrom start run }, .error e, effects⟩

/-- Applies a regular command to its arguments, pushed as a run of their own, or else to the whole
frame. -/
def applyRegular (host : Host) (p : Processor) (c : RegularCommand) (arguments : List Argument) :
    Executed :=
  if arguments.isEmpty then p.applyFrom host c p.stack.frame
  else
    match p.resolveAll arguments with
    | .error e => ⟨p, .error e, []⟩
    | .ok values =>
      match p.stack.pushValues values with
      | .error e => ⟨p, .error e, []⟩
      | .ok stack => { p with stack }.applyFrom host c p.stack.top

def execute (host : Host) (length : Nat) (p : Processor) (s : Statement) : Executed :=
  match s.command with
  | .regular c => p.applyRegular host c s.arguments
  | .special c =>
    match c.apply p length s.arguments with
    | .ok (q, flow) => ⟨q, .ok flow, []⟩
    | .error e => ⟨p, .error e, []⟩

inductive Step where
  | ended (run : Run)
  | on (processor : Processor) (effects : List Effect)

/-- One step of a run: executes the statement `s`. -/
def stepWith (host : Host) (length : Nat) (p : Processor) (s : Statement) : Step :=
  let x := p.execute host length s
  let q := x.processor
  match x.outcome with
  | .error e => .ended ⟨{ q with phase := .failed }, .error ⟨s.command, q.pc, e⟩, x.effects⟩
  | .ok flow =>
    if 0 < q.spill then
      .ended ⟨{ q with phase := .jumpedOut q.spill }, .ok (.jumpedOut q.spill q.stack.result),
        x.effects⟩
    else match flow with
      | .next => .on { q with pc := q.pc + 1 } x.effects
      | .jumped => .on q x.effects

def finish (p : Processor) : Run :=
  ⟨{ p with phase := .done }, .ok (.done p.stack.result), []⟩

def step (host : Host) (program : List Statement) (p : Processor) : Step :=
  match program[p.pc]? with
  | none => .ended p.finish
  | some s => p.stepWith host program.length s

/-- Runs a program from where the processor is; `none` when the run does not end. -/
def runOn (host : Host) (program : List Statement) (p : Processor) : Option Run :=
  match _h : program[p.pc]? with
  | none => some p.finish
  | some s =>
    match p.stepWith host program.length s with
    | .ended r => some r
    | .on q effects =>
      if p.pc < q.pc then (runOn host program q).map (Run.after effects) else none
termination_by program.length - p.pc
decreasing_by
  have := (List.getElem?_eq_some_iff.1 _h).1
  omega

def run (host : Host) (program : List Statement) (p : Processor) : Option Run :=
  runOn host program { p with phase := .running }

end Processor

end TransactionEngine
