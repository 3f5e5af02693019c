import TransactionEngine.Error
import TransactionEngine.Value.Basic

/-! # The heap

Objects are shared: values and owners hold handles to them. Every object counts its handles, and
is closed and given up with the last one.
-/

namespace TransactionEngine

mutual

/-- The addresses of the objects that a value holds handles to, once for every handle. What those
objects hold is not counted. -/
def Value.handles : Value → List Nat
  | .object o => [o.address]
  | .set members => Value.handlesOf members
  | .named _ v => v.handles
  | _ => []

def Value.handlesOf : List Value → List Nat
  | [] => []
  | v :: vs => v.handles ++ Value.handlesOf vs

end

mutual

/-- A value with other objects in the place of those it refers to. -/
def Value.mapObjects (f : Object → Object) : Value → Value
  | .object o => .object (f o)
  | .set members => .set (Value.mapObjectsAll f members)
  | .named name v => .named name (v.mapObjects f)
  | v => v

def Value.mapObjectsAll (f : Object → Object) : List Value → List Value
  | [] => []
  | v :: vs => v.mapObjects f :: Value.mapObjectsAll f vs

end

/-- An object as a heap keeps references to it: of a set they say only where it is. -/
def Object.bare : Object → Object
  | .set a _ => .set a []
  | o => o

/-- The addresses of the objects that an object holds handles to. -/
def Object.handles : Object → List Nat
  | .set _ members => Value.handlesOf members
  | _ => []

/-- An object, with bare references in it, and the number of handles to it. Of a set there are the
levels at which a search meets its members, and of an object defined elsewhere the `hidden`
addresses of objects that it holds handles to. -/
structure Cell where
  object : Object
  levels : List Nat
  count : Nat
  hidden : List Nat

/-- The addresses of the objects that the object of a cell holds handles to. -/
def Cell.handles (c : Cell) : List Nat :=
  c.object.handles ++ c.hidden

/-- The objects that are alive, each at its own address, the address of the next one, and the addresses
of those that were closed, with what that came to. -/
structure Heap where
  cells : List Cell
  next : Nat
  closed : List (Nat × Except Error Unit)

namespace Heap

def empty : Heap :=
  ⟨[], 0, []⟩

def cell? (h : Heap) (address : Nat) : Option Cell :=
  h.cells.find? fun c => c.object.address = address

/-- The members of the set at an address; references in them are bare. -/
def members (h : Heap) (address : Nat) : List Value :=
  match (h.cell? address).map Cell.object with
  | some (.set _ members) => members
  | _ => []

/-- An object with the members that sets have now, down to sets inside of sets at a depth; sets at
the addresses in `path` stay bare. -/
def viewTo (h : Heap) : Nat → List Nat → Object → Object
  | depth + 1, path, .set a members =>
    if path.contains a then .set a members
    else .set a (Value.mapObjectsAll (h.viewTo depth (a :: path)) (h.members a))
  | _, _, o => o

/-- An object with the members that sets have now; inside of itself a set stays bare. -/
def view (h : Heap) : Object → Object :=
  h.viewTo h.cells.length []

def viewValue (h : Heap) : Value → Value :=
  Value.mapObjects h.view

def object? (h : Heap) (address : Nat) : Option Object :=
  (h.cell? address).map Cell.object

def count (h : Heap) (address : Nat) : Nat :=
  ((h.cell? address).map Cell.count).getD 0

def update (h : Heap) (address : Nat) (f : Cell → Cell) : Heap :=
  { h with cells := h.cells.map fun c => if c.object.address = address then f c else c }

def retain (h : Heap) (address : Nat) : Heap :=
  h.update address fun c => { c with count := c.count + 1 }

def retainAll (h : Heap) (addresses : List Nat) : Heap :=
  addresses.foldl retain h

/-- Gives up the object at an address after closing it, whatever that came to. -/
def remove (close : Nat → Except Error Unit) (h : Heap) (address : Nat) : Heap :=
  { h with
    cells := h.cells.filter fun c => c.object.address ≠ address
    closed := h.closed ++ [(address, close address)] }

theorem length_update (h : Heap) (address : Nat) (f : Cell → Cell) :
    (h.update address f).cells.length = h.cells.length := by
  simp [update]

theorem length_remove_lt {close : Nat → Except Error Unit} {h : Heap} {address : Nat} {c : Cell}
    (hc : h.cell? address = some c) :
    (h.remove close address).cells.length < h.cells.length := by
  have hm := List.mem_of_find?_eq_some hc
  have ha := List.find?_some hc
  simp only [remove]
  refine List.length_filter_lt_length_iff_exists.2 ⟨c, hm, ?_⟩
  simpa using ha

/-- Drops one handle for each address in a list. The last handle to an object takes the object
with it, and with that the handles that it holds. -/
def release (close : Nat → Except Error Unit) (h : Heap) (addresses : List Nat) : Heap :=
  match addresses with
  | [] => h
  | address :: rest =>
    match _h : h.cell? address with
    | none => release close h rest
    | some c =>
      if c.count ≤ 1 then release close (h.remove close address) (c.handles ++ rest)
      else release close (h.update address fun c => { c with count := c.count - 1 }) rest
termination_by (h.cells.length, addresses.length)
decreasing_by
  · apply Prod.Lex.right
    simp
  · apply Prod.Lex.left
    exact length_remove_lt _h
  · rw [length_update]
    apply Prod.Lex.right
    simp

/-- A new object that takes handles of its own to the objects at `hidden` addresses and to no
others; the result is its address. The caller holds its only handle. -/
def create (h : Heap) (object : Nat → Object) (hidden : List Nat) : Nat × Heap :=
  let h := h.retainAll hidden
  (h.next, { h with cells := h.cells ++ [⟨object h.next, [], 1, hidden⟩], next := h.next + 1 })

end Heap

end TransactionEngine
