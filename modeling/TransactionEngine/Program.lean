import TransactionEngine.Value.Basic

/-! # Programs

A program is a list of statements, each a command with arguments. Regular commands work on a run
of values; special commands see the machine they run on.
-/

namespace TransactionEngine

/-- Commands that work on a run of values. -/
inductive RegularCommand where
  | add
  | and
  | call
  | concat
  | div
  | eq
  | exec
  | gt
  | hash
  | log
  | lt
  | mod
  | mul
  | named
  | not
  | or
  | set
  | sub
deriving DecidableEq, Repr

/-- Commands that change the stack's shape or the flow of a program. -/
inductive SpecialCommand where
  | context
  | exit
  | jump
  | jumpIf
  | pop
  | push
  | store
deriving DecidableEq, Repr

inductive Command where
  | regular (c : RegularCommand)
  | special (c : SpecialCommand)
deriving DecidableEq, Repr

def RegularCommand.name : RegularCommand → String
  | add => "add"
  | and => "and"
  | call => "call"
  | concat => "concat"
  | div => "div"
  | eq => "eq"
  | exec => "exec"
  | gt => "gt"
  | hash => "hash"
  | log => "log"
  | lt => "lt"
  | mod => "mod"
  | mul => "mul"
  | named => "named"
  | not => "not"
  | or => "or"
  | set => "set"
  | sub => "sub"

def SpecialCommand.name : SpecialCommand → String
  | context => "context"
  | exit => "exit"
  | jump => "jump"
  | jumpIf => "jump_if"
  | pop => "pop"
  | push => "push"
  | store => "store"

namespace Command

def name : Command → String
  | regular c => c.name
  | special c => c.name

def isRegular : Command → Bool
  | regular _ => true
  | special _ => false

/-- The name and the convention of a command in one line. -/
def describe (c : Command) : String :=
  "Command \x7b name: " ++ Text.quoted c.name ++ ", kind: " ++
    (if c.isRegular then "Regular" else "Special") ++ " \x7d"

def all : List Command :=
  [regular .add, regular .and, regular .call, regular .concat, special .context, regular .div,
    regular .eq, regular .exec, special .exit, regular .gt, regular .hash, special .jump,
    special .jumpIf, regular .log, regular .lt, regular .mod, regular .mul, regular .named,
    regular .not, regular .or, special .pop, special .push, regular .set, special .store,
    regular .sub]

end Command

/-- An argument stands in a statement, or at a position of the stack when the statement runs. -/
inductive Argument where
  | direct (v : Value)
  | position (p : Int64)

/-- A command with its arguments. -/
structure Statement where
  command : Command
  arguments : List Argument

end TransactionEngine
