import TransactionEngine.Processor.Basic

/-! # Special commands

Commands that get the processor and their arguments as they are written. One that fails changes
nothing.
-/

namespace TransactionEngine

/-- What runs after a statement: the next one, or the one that the processor was moved to. -/
inductive Flow where
  | next
  | jumped
deriving DecidableEq, Repr

namespace SpecialCommand

def count (c : SpecialCommand) (p : Processor) (a : Argument) : Except Error Nat := do
  let v ← p.resolve a
  let n ← v.asInt
  if n.toInt < 0 then .error (.negativeCount c.name n) else pure n.toInt.toNat

def onStack (p : Processor) (stack : Except Error Stack) : Except Error (Processor × Flow) := do
  let stack ← stack
  pure ({ p with stack }, .next)

/-- Pushes nil, or so many times nil, or the values after the count. -/
def applyPush (p : Processor) : List Argument → Except Error (Processor × Flow)
  | [] => onStack p (p.stack.push 1)
  | first :: values => do
    let n ← count push p first
    if values.isEmpty then onStack p (p.stack.push n)
    else if values.length ≠ n then .error (.pushCount n values.length)
    else do
      let values ← p.resolveAll values
      onStack p (p.stack.pushValues values)

/-- Pops one value, or so many. -/
def applyPop (p : Processor) : List Argument → Except Error (Processor × Flow)
  | [] => onStack p (p.stack.pop 1)
  | [a] => do
    let n ← count pop p a
    onStack p (p.stack.pop n)
  | _ => .error (.takesAtMostOne pop.name)

def applyStore (p : Processor) : List Argument → Except Error (Processor × Flow)
  | [source, .position target] => do
    let v ← p.resolve source
    let index ← p.resolveIndex target
    pure ({ p with stack := p.stack.set index v }, .next)
  | [_, .direct _] => .error .storeIntoLiteral
  | arguments => .error (.takesArguments store.name 2 arguments.length)

def jumpBy (p : Processor) (length : Nat) (delta : Int64) : Except Error (Processor × Flow) := do
  match ← p.landing length delta with
  | .inside target => pure (p.move (.inside target), .jumped)
  | .outside spill => pure ({ p with spill }, .next)

def applyJump (p : Processor) (length : Nat) : List Argument → Except Error (Processor × Flow)
  | [a] => do
    let v ← p.resolve a
    let delta ← v.asInt
    jumpBy p length delta
  | arguments => .error (.takesArguments jump.name 1 arguments.length)

def applyJumpIf (p : Processor) (length : Nat) : List Argument → Except Error (Processor × Flow)
  | [condition, a] => do
    let v ← p.resolve a
    let delta ← v.asInt
    let w ← p.resolve condition
    let holds ← w.truthy
    if holds then jumpBy p length delta else pure (p, .next)
  | arguments => .error (.takesArguments jumpIf.name 2 arguments.length)

/-- Pushes the object the program runs for, or nil. -/
def applyContext (p : Processor) : List Argument → Except Error (Processor × Flow)
  | [] => onStack p (p.stack.pushValues [(p.context.map Value.object).getD .nil])
  | _ => .error (.takesNoArguments context.name)

def applyExit (p : Processor) : List Argument → Except Error (Processor × Flow)
  | [] => .ok ({ p with exitRequested := true }, .next)
  | _ => .error (.takesNoArguments exit.name)

def apply (c : SpecialCommand) (p : Processor) (length : Nat) (arguments : List Argument) :
    Except Error (Processor × Flow) :=
  match c with
  | context => applyContext p arguments
  | exit => applyExit p arguments
  | jump => applyJump p length arguments
  | jumpIf => applyJumpIf p length arguments
  | pop => applyPop p arguments
  | push => applyPush p arguments
  | store => applyStore p arguments

end SpecialCommand

end TransactionEngine
