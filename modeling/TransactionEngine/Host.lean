import TransactionEngine.Value.Wire

/-! # What surrounds the engine

Two commands reach out of the engine: one runs an object whose type is defined elsewhere, one
starts a program. What comes back is the host's answer. What commands do to the outside is kept
as a list of effects.
-/

namespace TransactionEngine

inductive LogLevel where
  | error
  | warn
  | info
  | debug
  | trace
deriving DecidableEq, Repr

/-- The level that a number from one to five stands for. -/
def LogLevel.ofInt? (n : Int64) : Option LogLevel :=
  if n = 1 then some error
  else if n = 2 then some warn
  else if n = 3 then some info
  else if n = 4 then some debug
  else if n = 5 then some trace
  else none

def LogLevel.name : LogLevel → String
  | error => "ERROR"
  | warn => "WARN"
  | info => "INFO"
  | debug => "DEBUG"
  | trace => "TRACE"

/-- Something that commands did to the outside. -/
inductive Effect where
  | logged (level : LogLevel) (text : String)
  | ran (address : Nat)
  | spawned (path : String) (arguments : List String)
deriving DecidableEq

/-- What an object does when it is run on some arguments: values that take the place of the leading
ones, as many as there are of both, and how many of them are the result. -/
structure Answer where
  written : List Value
  outcome : Except Error Nat

/-- The answers of the outside: what the object at an address does with arguments, if it can be run,
and the number of the process that a path and arguments start. -/
structure Host where
  run : Nat → List Value → Option Answer
  spawn : String → List String → Except SpawnFailure UInt32

/-- A host that runs no object and starts no program. -/
def Host.silent : Host :=
  ⟨fun _ _ => none, fun _ _ => .error .missing⟩

/-- Values copied over the front of others. -/
def overwrite (written slots : List Value) : List Value :=
  written.take slots.length ++ slots.drop written.length

theorem length_overwrite (written slots : List Value) :
    (overwrite written slots).length = slots.length := by
  simp [overwrite]
  omega

/-- What running an object came to: the arguments as it left them, and how many of them it says to
keep. -/
structure ObjectRun where
  arguments : List Value
  outcome : Except Error Nat
  effects : List Effect

def Object.run (host : Host) (o : Object) (arguments : List Value) : ObjectRun :=
  match o with
  | .plugin address type =>
    match host.run address arguments with
    | some answer => ⟨overwrite answer.written arguments, answer.outcome, [.ran address]⟩
    | none => ⟨arguments, .error (.unsupported type .run), []⟩
  | o => ⟨arguments, .error (.unsupported o.typeName .run), []⟩

end TransactionEngine
