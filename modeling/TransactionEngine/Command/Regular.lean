import TransactionEngine.Command.Arithmetic
import TransactionEngine.Host
import TransactionEngine.Program
import TransactionEngine.Value.Hash

/-! # Regular commands

A regular command works on a run of values and leaves a list of results that takes the place of
the run. A command that fails leaves its run as it was, but for what a failing object wrote.
-/

namespace TransactionEngine

/-- What a regular command came to: results that take the place of the run, or an error and the run as
it was left. -/
inductive Applied where
  | done (results : List Value) (effects : List Effect)
  | failed (error : Error) (run : List Value) (effects : List Effect)

def Applied.single (run : List Value) : Except Error Value → Applied
  | .ok v => .done [v] []
  | .error e => .failed e run []

namespace RegularCommand

def tooFew (c : RegularCommand) (least : Nat) (run : List Value) : Error :=
  .tooFewArguments c.name least run.length

def notExactly (c : RegularCommand) (wanted : Nat) (run : List Value) : Error :=
  .wrongArgumentCount c.name wanted run.length

def intStep (c : RegularCommand) (op : Int64 → Int64 → Option Int64) (acc : Int64) (v : Value) :
    Except Error Int64 := do
  let n ← v.asInt
  match op acc n with
  | some r => pure r
  | none => .error (.arithmetic c.name acc n)

/-- The run as integers, folded from the left. -/
def foldInts (c : RegularCommand) (op : Int64 → Int64 → Option Int64) :
    List Value → Except Error Value
  | [] => .error (c.tooFew 1 [])
  | v :: vs => do
    let first ← v.asInt
    let r ← vs.foldlM (intStep c op) first
    pure (.int r)

def boolStep (op : Bool → Bool → Bool) (acc : Bool) (v : Value) : Except Error Bool := do
  let b ← v.asBool
  pure (op acc b)

def foldBools (c : RegularCommand) (op : Bool → Bool → Bool) : List Value → Except Error Value
  | [] => .error (c.tooFew 1 [])
  | v :: vs => do
    let first ← v.asBool
    let r ← vs.foldlM (boolStep op) first
    pure (.bool r)

/-- Whether a relation holds between every value and the next one. -/
def adjacent (related : Value → Value → Bool) : List Value → Bool
  | v :: w :: vs => related v w && adjacent related (w :: vs)
  | _ => true

def chain (c : RegularCommand) (related : Value → Value → Bool) : List Value → Except Error Value
  | [] => .error (c.tooFew 1 [])
  | run => .ok (.bool (adjacent related run))

/-- Fails at the first value of another kind than the one before it. -/
def requireOneKind (c : RegularCommand) : List Value → Except Error Unit
  | v :: w :: vs =>
    if v.kind = w.kind then requireOneKind c (w :: vs)
    else .error (.unordered c.name v.kind w.kind)
  | _ => .ok ()

/-- Whether a relation that makes sense within one kind holds all along the run. -/
def ordered (c : RegularCommand) (related : Value → Value → Bool) (run : List Value) :
    Except Error Value := do
  requireOneKind c run
  chain c related run

def negated : List Value → Except Error Value
  | [v] => do
    let b ← v.asBool
    pure (.bool !b)
  | run => .error (not.notExactly 1 run)

def concatenated : List Value → Except Error Value
  | [] => .error (concat.tooFew 1 [])
  | run => .ok (.string (String.join (Value.displays run)))

def collected : List Value → Except Error Value
  | [] => .error (set.tooFew 1 [])
  | run => .ok (Value.setOf run)

def labelled : List Value → Except Error Value
  | [label, v] => do
    let s ← label.asString
    pure (.named s v)
  | run => .error (named.notExactly 2 run)

def hashed : List Value → Except Error Value
  | [v] => do
    let h ← v.hash
    pure (.int h.toInt64)
  | run => .error (hash.notExactly 1 run)

/-- Runs the object in front on the values after it. What the object keeps takes the place of the
whole run. -/
def called (host : Host) : List Value → Applied
  | [] => .failed (call.tooFew 1 []) [] []
  | v :: arguments =>
    match v.asObject with
    | .error e => .failed e (v :: arguments) []
    | .ok o =>
      let r := o.run host arguments
      match r.outcome with
      | .ok keep => .done (r.arguments.take keep) r.effects
      | .error e => .failed e (v :: r.arguments) r.effects

def levelOf (v : Value) : Except Error LogLevel := do
  let n ← v.asInt
  match LogLevel.ofInt? n with
  | some level => pure level
  | none => .error (.logLevel n)

/-- Writes a line to the log: whom it comes from, how serious it is, and what it says. -/
def written : List Value → Applied
  | source :: severity :: message =>
    match levelOf severity with
    | .ok level =>
      .done []
        [.logged level ("[" ++ source.display ++ "] " ++ " ".intercalate (Value.displays message))]
    | .error e => .failed e (source :: severity :: message) []
  | run => .failed (log.tooFew 2 run) run []

def holdsZero (s : String) : Bool :=
  s.toList.contains '\x00'

/-- The answer to the wish to start a program. -/
def start (host : Host) (path : String) (arguments : List String) : Except SpawnFailure UInt32 :=
  if holdsZero path || arguments.any holdsZero then .error .zeroCharacter
  else host.spawn path arguments

/-- Starts a program; the result is the number of its process. -/
def started (host : Host) : List Value → Applied
  | [] => .failed (exec.tooFew 1 []) [] []
  | v :: vs =>
    match v.asString with
    | .error e => .failed e (v :: vs) []
    | .ok path =>
      let arguments := Value.displays vs
      match start host path arguments with
      | .ok process => .done [.int (Int64.ofInt process.toNat)] [.spawned path arguments]
      | .error failure => .failed (.notStarted path failure) (v :: vs) [.spawned path arguments]

def apply (host : Host) (c : RegularCommand) (run : List Value) : Applied :=
  match c with
  | add => .single run (foldInts add Arithmetic.add run)
  | and => .single run (foldBools and (· && ·) run)
  | call => called host run
  | concat => .single run (concatenated run)
  | div => .single run (foldInts div Arithmetic.div run)
  | eq => .single run (chain eq (fun v w => v.compare w == .eq) run)
  | exec => started host run
  | gt => .single run (ordered gt (fun v w => v.compare w == .gt) run)
  | hash => .single run (hashed run)
  | log => written run
  | lt => .single run (ordered lt (fun v w => v.compare w == .lt) run)
  | mod => .single run (foldInts mod Arithmetic.mod run)
  | mul => .single run (foldInts mul Arithmetic.mul run)
  | named => .single run (labelled run)
  | not => .single run (negated run)
  | or => .single run (foldBools or (· || ·) run)
  | set => .single run (collected run)
  | sub => .single run (foldInts sub Arithmetic.sub run)

end RegularCommand

end TransactionEngine
