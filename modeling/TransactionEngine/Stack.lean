import TransactionEngine.Value.Basic

/-! # The execution stack

Slots from the bottom up, a marker for the lowest slot of the current frame, and the number of
slots there is room for. Room doubles when it runs out and halves when a quarter is enough, and
never falls below what the stack was made with.
-/

namespace TransactionEngine

/-- A stack of values, bottom first, with the lowest slot of the current frame and the number of slots
there is room for. -/
structure Stack where
  slots : List Value
  frame : Nat
  capacity : Nat
  minCapacity : Nat

namespace Stack

/-- The least room a stack is ever made with. -/
def leastCapacity : Nat :=
  4

/-- The most slots that memory is granted for. -/
def greatestCapacity : Nat :=
  Nat.pow 2 30

def ofCapacity (n : Nat) : Stack :=
  let capacity := max n leastCapacity
  ⟨[], 0, capacity, capacity⟩

def top (s : Stack) : Nat :=
  s.slots.length

def frameLength (s : Stack) : Nat :=
  s.top - s.frame

def frameSlots (s : Stack) : List Value :=
  s.slots.drop s.frame

/-- `capacity` doubled until `needed` slots fit. -/
def doubled (needed capacity : Nat) : Nat :=
  if h : capacity < needed ∧ 0 < capacity then doubled needed (capacity * 2) else capacity
termination_by needed - capacity

def reserve (s : Stack) (needed : Nat) : Except Error Stack :=
  if needed ≤ s.capacity then .ok s
  else
    let capacity := doubled needed s.capacity
    if capacity ≤ greatestCapacity then .ok { s with capacity } else .error .outOfMemory

def pushValues (s : Stack) (values : List Value) : Except Error Stack := do
  let s ← s.reserve (s.top + values.length)
  pure { s with slots := s.slots ++ values }

def push (s : Stack) (n : Nat) : Except Error Stack := do
  let s ← s.reserve (s.top + n)
  pure { s with slots := s.slots ++ List.replicate n .nil }

/-- `capacity` halved as long as a quarter is enough for `top` and half is not below `least`. -/
def halved (least top capacity : Nat) : Nat :=
  if h : least ≤ capacity / 2 ∧ top ≤ capacity / 4 ∧ 0 < capacity then
    halved least top (capacity / 2)
  else capacity
termination_by capacity

def shrink (s : Stack) : Stack :=
  { s with capacity := halved s.minCapacity s.top s.capacity }

/-- Pops `n` values of the current frame. -/
def pop (s : Stack) (n : Nat) : Except Error Stack :=
  if s.frameLength < n then .error (.popBelowFrame n s.frameLength)
  else .ok (shrink { s with slots := s.slots.take (s.top - n) })

def slotsFrom (s : Stack) (start : Nat) : Except Error (List Value) :=
  if start ≤ s.top then .ok (s.slots.drop start) else .error (.aboveTop start)

/-- The slot a position stands for: counted from the bottom, or from the top when negative. -/
def indexOf (s : Stack) (position : Int64) : Except Error Nat :=
  let index := if 0 ≤ position.toInt then position.toInt else s.top + position.toInt
  if 0 ≤ index ∧ index < s.top then .ok index.toNat
  else .error (.outsideStack position s.top)

def get? (s : Stack) (index : Nat) : Option Value :=
  s.slots[index]?

def valueAt (s : Stack) (position : Int64) : Except Error Value := do
  let index ← s.indexOf position
  match s.get? index with
  | some v => pure v
  | none => .error (.outsideStack position s.top)

def set (s : Stack) (index : Nat) (v : Value) : Stack :=
  { s with slots := s.slots.set index v }

def setAt (s : Stack) (position : Int64) (v : Value) : Except Error Stack := do
  let index ← s.indexOf position
  pure (s.set index v)

def overwriteFrom (s : Stack) (start : Nat) (values : List Value) : Stack :=
  { s with slots := (s.slots.take start ++ values ++ s.slots.drop (start + values.length)) }

def peek (s : Stack) : Option Value :=
  s.slots.getLast?

def result (s : Stack) : Option Value :=
  if 0 < s.frameLength then s.peek else none

/-- Starts a frame at the top; also gives the marker of the frame before. -/
def startFrame (s : Stack) : Nat × Stack :=
  (s.frame, { s with frame := s.top })

/-- Drops the current frame and goes back to the frame that `saved` marks. -/
def restoreFrame (s : Stack) (saved : Nat) : Except Error Stack :=
  if s.frame < saved then .error (.frameAbove saved s.frame)
  else do
    let s ← s.pop s.frameLength
    pure { s with frame := saved }

end Stack

end TransactionEngine
