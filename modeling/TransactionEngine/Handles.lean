import TransactionEngine.Heap.Sets

/-! # Handles

The handles that are held from outside of a heap, each under a label.
-/

namespace TransactionEngine

/-- A heap, and the handles that are held outside of it under labels. -/
structure Handles where
  heap : Heap
  labels : List (String × Nat)

namespace Handles

def empty : Handles :=
  ⟨.empty, []⟩

/-- The object that a label holds a handle to; references in it are bare. -/
def object? (s : Handles) (label : String) : Option Object :=
  (s.labels.lookup label).bind s.heap.object?

def count (s : Handles) (label : String) : Nat :=
  ((s.labels.lookup label).map s.heap.count).getD 0

/-- Drops the handle of a label; also says whether it had one. -/
def drop (close : Nat → Except Error Unit) (s : Handles) (label : String) : Bool × Handles :=
  match s.labels.lookup label with
  | none => (false, s)
  | some address =>
    (true,
      ⟨s.heap.release close [address], s.labels.filter fun (l, _) => l ≠ label⟩)

/-- Puts a handle under a label in place of an earlier one. -/
def put (close : Nat → Except Error Unit) (s : Handles) (label : String) (address : Nat) :
    Handles :=
  let (_, s) := s.drop close label
  { s with labels := (label, address) :: s.labels }

/-- A new object under a label, with handles of its own to the objects at `hidden` addresses and
to no others; also gives its address. -/
def create (close : Nat → Except Error Unit) (s : Handles) (label : String)
    (object : Nat → Object) (hidden : List Nat) : Nat × Handles :=
  let (address, heap) := s.heap.create object hidden
  (address, put close { s with heap } label address)

/-- A new set under a label; also gives its address. -/
def createSet (close : Nat → Except Error Unit) (s : Handles) (label : String)
    (items : List Value) : Nat × Handles :=
  let (address, heap) := s.heap.createSet items
  (address, put close { s with heap } label address)

/-- One more handle to a label's object, under another label. -/
def clone (close : Nat → Except Error Unit) (s : Handles) (source target : String) : Handles :=
  match s.labels.lookup source with
  | none => s
  | some address => put close { s with heap := s.heap.retain address } target address

/-- Passes a value on to the set of a label. -/
def insert (close : Nat → Except Error Unit) (s : Handles) (label : String) (v : Value) :
    Option (Bool × Handles) := do
  let address ← s.labels.lookup label
  let (added, heap) ← s.heap.insert close address v
  pure (added, { s with heap })

end Handles

end TransactionEngine
