import TransactionEngine.Heap.Order
import TransactionEngine.Heap.Search

/-! # Sets on the heap

A set is changed through any handle to it, and the change shows through all.
-/

namespace TransactionEngine.Heap

/-- Passes a value on to the set at an address; also says whether it was put in. The set takes
over the handles that the value holds, or drops them if an equal value is a member. There is no
answer if no set is there. -/
def insert (close : Nat → Except Error Unit) (h : Heap) (address : Nat) (v : Value) :
    Option (Bool × Heap) :=
  match h.cell? address with
  | some ⟨.set _ members, levels, _, _⟩ =>
    let h := h.retainAll v.handles
    let members := List.zipWith Member.mk members levels
    match Member.insert h.compare (v.mapObjects Object.bare) members with
    | none => some (false, h.release close v.handles)
    | some now =>
      some (true, h.update address fun c =>
        { c with object := .set address (now.map Member.value), levels := now.map Member.level })
  | _ => none

/-- A new set with the values of a list, put in one after the other; the result is its address.
The set takes handles of its own to what its members refer to. -/
def createSet (h : Heap) (items : List Value) : Nat × Heap :=
  let members := items.foldl (fun (members : List Member) v =>
    (Member.insert h.compare (v.mapObjects Object.bare) members).getD members) []
  let values := members.map Member.value
  let (address, h) := (h.retainAll (Value.handlesOf values)).create (.set · values) []
  (address, h.update address fun c => { c with levels := members.map Member.level })

end TransactionEngine.Heap
