import TransactionEngine.Hash.SipHash
import TransactionEngine.Text.Bytes
import TransactionEngine.Value.Order

/-! # Hashes of values

A value is hashed through a list of bytes: its kind, then what it holds. Objects stand in that
list with their own hash, or with the name of their type when they have none.
-/

namespace TransactionEngine

open Hash (littleEndian sipHash)

def Kind.stream (k : Kind) : List UInt8 :=
  littleEndian (UInt64.ofNat k.rank)

/-- The bytes of a text, closed by a byte that occurs in no text. -/
def textStream (s : String) : List UInt8 :=
  Text.bytes s ++ [0xFF]

mutual

def Value.stream : Value → List UInt8
  | .nil => Kind.stream .nil
  | .bool b => Kind.stream .bool ++ [if b then 1 else 0]
  | .int n => Kind.stream .int ++ littleEndian n.toUInt64
  | .string s => Kind.stream .string ++ textStream s
  | .null => Kind.stream .object ++ [0]
  | .object o => Kind.stream .object ++ o.stream
  | .set members => Kind.stream .set ++
      littleEndian (sipHash (littleEndian (UInt64.ofNat members.length) ++ Value.streams members))
  | .named name v => Kind.stream .named ++ (textStream name ++ v.stream)

def Object.stream : Object → List UInt8
  | .connection _ id => littleEndian id
  | .set _ members =>
      littleEndian (sipHash (littleEndian (UInt64.ofNat members.length) ++ Value.streams members))
  | .plugin _ type => textStream type

def Value.streams : List Value → List UInt8
  | [] => []
  | v :: vs => v.stream ++ Value.streams vs

end

/-- The bytes that are hashed for a set with these members. -/
def Value.membersStream (members : List Value) : List UInt8 :=
  littleEndian (UInt64.ofNat members.length) ++ Value.streams members

def Value.hashMembers (members : List Value) : UInt64 :=
  sipHash (Value.membersStream members)

/-- The hash that an object's type offers. -/
def Object.hashOwn : Object → Except Error UInt64
  | .connection _ id => .ok id
  | .set _ members => .ok (Value.hashMembers members)
  | .plugin _ type => .error (.unsupported type .hash)

/-- The hash of a value; an object that has none is an error. -/
def Value.hash : Value → Except Error UInt64
  | .object o => o.hashOwn
  | .set members => .ok (hashMembers members)
  | v => .ok (sipHash v.stream)

end TransactionEngine
