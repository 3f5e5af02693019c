import TransactionEngine.Text.Bytes
import TransactionEngine.Value.Wire

/-! # Replies

The answer to a message, and the line that is sent for it.
-/

namespace TransactionEngine

/-- The answer to a message; the error for one too broken to show its number has none. -/
inductive Reply where
  | value (id : UInt64) (value : Option Value)
  | error (id : Option UInt64) (error : Error)

/-- Replies are equal if they are of one form under one number and hold equal values, or errors that
are the same to a client. -/
instance : BEq Reply where
  beq
    | .value i v, .value j w => i == j && v == w
    | .error i e, .error j f =>
      i == j && e.code == f.code && e.description == f.description && e.cause == f.cause
    | _, _ => false

namespace Reply

def id : Reply → Option UInt64
  | value id _ => some id
  | error id _ => id

def isError : Reply → Bool
  | value .. => false
  | error .. => true

def idJson : Option UInt64 → Json
  | some id => .int id.toNat
  | none => .null

def errorJson (e : Error) : Json :=
  .object [("code", .int e.code), ("description", .string e.description), ("cause", .string e.cause)]

def toJson : Reply → Json
  | value id v => .object [("UID", idJson (some id)), ("VALUE", (v.map Value.toJson).getD .null)]
  | error id e => .object [("UID", idJson id), ("ERROR", errorJson e)]

/-- The line that is sent for a reply, without its end. -/
def text (r : Reply) : String :=
  r.toJson.compact

def line (r : Reply) : String :=
  r.text ++ "\n"

def encode (r : Reply) : List UInt8 :=
  Text.bytes r.line

end Reply

end TransactionEngine
