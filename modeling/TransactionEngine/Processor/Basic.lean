import TransactionEngine.Program
import TransactionEngine.Stack

/-! # Processors

A processor runs a program in a frame of its own on the stack it was given. The frame is dropped
when the processor is closed, however its runs ended.
-/

namespace TransactionEngine

/-- Where a processor is in its life; a jump out says how far past the end it went. -/
inductive Phase where
  | ready
  | running
  | done
  | failed
  | jumpedOut (spill : Nat)
deriving DecidableEq, Repr

/-- A processor; its program is given whenever it runs. `pc` is the statement that runs next, and
`spill` how far the last jump out went past the end, zero if there was none. -/
structure Processor where
  stack : Stack
  context : Option Object
  savedFrame : Nat
  pc : Nat
  spill : Nat
  exitRequested : Bool
  phase : Phase

/-- Where a jump leads; the place right after the last statement is one past the end. -/
inductive Landing where
  | inside (target : Nat)
  | outside (spill : Nat)
deriving DecidableEq, Repr

/-- How far past the end a jump leads; zero if it leads inside. -/
def Landing.spill : Landing → Nat
  | inside _ => 0
  | outside spill => spill

namespace Processor

/-- A processor at the start of a program, in a new frame. -/
def start (stack : Stack) (context : Option Object) : Processor :=
  let (saved, stack) := stack.startFrame
  ⟨stack, context, saved, 0, 0, false, .ready⟩

/-- The stack without the processor's frame. -/
def close (p : Processor) : Stack :=
  match p.stack.restoreFrame p.savedFrame with
  | .ok stack => stack
  | .error _ => p.stack

/-- The slot a position stands for, which must lie in the frame. -/
def resolveIndex (p : Processor) (position : Int64) : Except Error Nat := do
  let index ← p.stack.indexOf position
  if index < p.stack.frame then .error (.belowFrame position) else pure index

def resolve (p : Processor) : Argument → Except Error Value
  | .direct v => .ok v
  | .position position => do
    let index ← p.resolveIndex position
    match p.stack.get? index with
    | some v => pure v
    | none => .error (.outsideStack position p.stack.top)

def resolveAll (p : Processor) (arguments : List Argument) : Except Error (List Value) :=
  arguments.mapM p.resolve

/-- Where a jump of `delta` statements leads in a program of `length` statements. -/
def landing (p : Processor) (length : Nat) (delta : Int64) : Except Error Landing :=
  if delta.toInt < 0 then .error (.backwardsJump delta)
  else
    let target := p.pc + delta.toInt.toNat
    if target < length then .ok (.inside target) else .ok (.outside (target - length + 1))

def move (p : Processor) : Landing → Processor
  | .inside target => { p with pc := target }
  | .outside _ => p

end Processor

end TransactionEngine
