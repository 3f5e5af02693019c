import TransactionEngine.Program

/-! # Transactions and messages

Programs under a name, and what the registry can be asked for.
-/

namespace TransactionEngine

/-- Whether a transaction is run now, and whether it is kept under its name. -/
structure Flags where
  exec : Bool
  register : Bool
deriving DecidableEq, Repr

def Flags.isEmpty (f : Flags) : Bool :=
  !f.exec && !f.register

/-- A program under a name, with the number of the message and of the connection it came in; when it is
registered it is bound to the event. -/
structure Transaction where
  id : UInt64
  name : String
  flags : Flags
  connectionId : Option UInt64
  event : Option String
  statements : List Statement

inductive Message where
  | transaction (t : Transaction)
  | event (id : UInt64) (name : String)

def Message.id : Message → UInt64
  | transaction t => t.id
  | event id _ => id

end TransactionEngine
