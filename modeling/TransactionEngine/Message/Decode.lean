import TransactionEngine.Command.Lookup
import TransactionEngine.Message.Envelope
import TransactionEngine.Reply
import TransactionEngine.Transaction

/-! # Messages from JSON

What a client sends: transactions and events for the registry, and keys for the matcher.
-/

namespace TransactionEngine

inductive Incoming where
  | message (m : Message)
  | key (id : UInt64) (event : KeyEvent)

def Incoming.id : Incoming → UInt64
  | message m => m.id
  | key id _ => id

/-- A message that could not be understood, with its number if it shows one. -/
structure DecodeError where
  id : Option UInt64
  error : Error

namespace DecodeError

def reply (e : DecodeError) : Reply :=
  .error e.id e.error

def display (e : DecodeError) : String :=
  let id := match e.id with
    | some id => "Some(" ++ toString id.toNat ++ ")"
    | none => "None"
  "message " ++ id ++ ": " ++ e.error.display

end DecodeError

namespace Incoming

def refuse {α : Type} (fault : MessageFault) : Except Error α :=
  .error (.badMessage fault)

def addFlag (flags : Flags) (flag : String) : Except Error Flags :=
  if flag = "EXEC" then .ok { flags with exec := true }
  else if flag = "REGISTER" then .ok { flags with register := true }
  else refuse (.unknownFlag flag)

def flags (words : List String) : Except Error Flags :=
  words.foldlM addFlag ⟨false, false⟩

def literal : Json → Except Error Value
  | .null => .ok .nil
  | .bool b => .ok (.bool b)
  | .string s => .ok (.string s)
  | .int n =>
    match (Json.int n).asInt64? with
    | some i => .ok (.int i)
    | none => refuse (.notAnInteger (Json.int n).compact)
  | .double d => refuse (.notAnInteger (Json.double d).compact)
  | j => refuse (.unsupportedLiteral j.compact)

/-- A position, a named value, a set, or a value that is written as it is. -/
def argument : Json → Except Error Argument
  | .object [("pos", j)] =>
    match j.asInt64? with
    | some p => .ok (.position p)
    | none => refuse (.badPosition j.compact)
  | .object [a, b] =>
    let j := Json.object [a, b]
    match j.field? "name" with
    | none => (literal j).map .direct
    | some name =>
      match name.asString? with
      | none => refuse .nameNotString
      | some s =>
        match j.field? "value" with
        | none => refuse .namedWithoutValue
        | some content => (literal content).map fun v => .direct (.named s v)
  | .array items => (items.mapM literal).map fun members => .direct (Value.setOf members)
  | j => (literal j).map .direct

def statement : List (String × Json) → Except Error Statement
  | [(name, j)] => do
    let command ← Command.find name
    match j with
    | .array items =>
      let arguments ← items.mapM argument
      pure ⟨command, arguments⟩
    | .null => pure ⟨command, []⟩
    | j => refuse (.argumentsNotList name j.compact)
  | _ => refuse .notOneCommand

/-- The name of a transaction; one that is to be kept must have one. -/
def transactionName (f : Flags) : Option String → Except Error String
  | some name => .ok name
  | none => if f.register then refuse .registerWithoutName else .ok ""

def transaction (e : Envelope) : Except Error Transaction := do
  let f ← flags e.flags
  let name ← transactionName f e.name
  let statements ← e.cmds.mapM statement
  pure ⟨e.uid, name, f, none, e.event, statements⟩

def ofEnvelope (e : Envelope) : Except Error Incoming :=
  match e.type with
  | .transaction => (transaction e).map fun t => .message (.transaction t)
  | .event =>
    match e.name with
    | some name => .ok (.message (.event e.uid name))
    | none => refuse .eventWithoutName
  | .input =>
    match e.code, e.state with
    | none, _ => refuse .inputWithoutCode
    | _, none => refuse .inputWithoutState
    | some code, some state => .ok (.key e.uid ⟨code, state⟩)

/-- The number that a message shows, whatever else it holds. -/
def shownId (j : Json) : Option UInt64 :=
  (j.field? "UID").bind Json.asUInt64?

def decode (j : Json) : Except DecodeError Incoming :=
  let refused (e : Error) : DecodeError := ⟨shownId j, e⟩
  match Envelope.ofJson j with
  | .error fault => .error (refused (.badMessage (.shape fault)))
  | .ok envelope =>
    match ofEnvelope envelope with
    | .error e => .error (refused e)
    | .ok incoming => .ok incoming

end Incoming

end TransactionEngine
