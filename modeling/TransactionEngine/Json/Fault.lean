import TransactionEngine.Json.Shape
import TransactionEngine.Json.SyntaxFault

/-! # Where JSON text is faulty

A fault is found at a place of the text. Readers work on what is left of a text, so a place is
kept as the number of bytes left after it.
-/

namespace TransactionEngine.Json

/-- A text, or what is left of it, as bytes. -/
abbrev Bytes := List UInt8

/-- Why a text was refused. -/
inductive Reason where
  | grammar (fault : SyntaxFault)
  | shape (fault : ShapeFault)
deriving DecidableEq

def Reason.message : Reason → String
  | grammar fault => fault.message
  | shape fault => fault.message

/-- A fault and its place: how many bytes were left after the last byte that was taken, and after
the last one that was looked at. -/
structure Fault where
  reason : Reason
  taken : Nat
  seen : Nat
deriving DecidableEq

namespace Fault

/-- A fault of the grammar found after the last byte taken; `left` is what follows that byte. -/
def taking (fault : SyntaxFault) (left : Bytes) : Fault :=
  ⟨.grammar fault, left.length, left.length⟩

/-- A fault of the grammar whose place is `n` bytes before the last byte taken. -/
def earlier (fault : SyntaxFault) (n : Nat) (left : Bytes) : Fault :=
  ⟨.grammar fault, left.length + n, left.length + n⟩

/-- A fault of the grammar at the next byte, or at the end when there is none. -/
def next (fault : SyntaxFault) (left : Bytes) : Fault :=
  ⟨.grammar fault, left.length - 1, left.length - 1⟩

/-- A fault of the grammar found after the last byte taken, with the next one looked at. -/
def looking (fault : SyntaxFault) (left : Bytes) : Fault :=
  ⟨.grammar fault, left.length, left.length - 1⟩

/-- A fault of shape found after the last byte taken. -/
def shaped (fault : ShapeFault) (left : Bytes) : Fault :=
  ⟨.shape fault, left.length, left.length⟩

/-- Whether the text ended where it could have gone on. -/
def isEnd (f : Fault) : Bool :=
  match f.reason with
  | .grammar fault => fault.isEnd
  | .shape _ => false

end Fault

/-- The line a text ends on, counted from one. -/
def lineAfter (read : Bytes) : Nat :=
  read.count '\n'.toUInt8 + 1

/-- The number of bytes on the last line of a text. -/
def columnAfter (read : Bytes) : Nat :=
  (read.reverse.takeWhile (· != '\n'.toUInt8)).length

/-- The words for a reason with the place at which `left` bytes of `whole` are left. -/
def Reason.messageAt (reason : Reason) (whole : Bytes) (left : Nat) : String :=
  let read := whole.take (whole.length - left)
  reason.message ++ " at line " ++ toString (lineAfter read) ++ " column " ++
    toString (columnAfter read)

/-- The words for a fault in a text that is at hand as a whole: its place is the last byte
taken. -/
def Fault.inText (f : Fault) (whole : Bytes) : String :=
  f.reason.messageAt whole f.taken

/-- The words for a fault in a stream: its place is the last byte looked at. -/
def Fault.inStream (f : Fault) (whole : Bytes) : String :=
  f.reason.messageAt whole f.seen

end TransactionEngine.Json
