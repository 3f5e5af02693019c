import TransactionEngine.Heap.Basic
import TransactionEngine.Value.Order

/-! # The order of values on a heap

On a heap a set can come to hold itself, and its members are found by where it is. An object is
always equal to itself; two different sets are compared by the members they have now.
-/

namespace TransactionEngine

mutual

/-- The order of values over an order of objects. -/
def Value.compareOver (objects : Object → Object → Ordering) : Value → Value → Ordering
  | .bool a, .bool b => Ord.compare a b
  | .int a, .int b => Ord.compare a b
  | .string a, .string b => Ord.compare a b
  | .null, .object _ => .lt
  | .object _, .null => .gt
  | .object a, .object b => objects a b
  | .set a, .set b => Value.compareMembersOver objects a b
  | .named a v, .named b w => (Ord.compare a b).then (v.compareOver objects w)
  | a, b => Ord.compare a.kind.rank b.kind.rank

/-- The order of lists of values over an order of objects. -/
def Value.compareMembersOver (objects : Object → Object → Ordering) :
    List Value → List Value → Ordering
  | [], [] => .eq
  | [], _ :: _ => .lt
  | _ :: _, [] => .gt
  | v :: vs, w :: ws =>
    (v.compareOver objects w).then (Value.compareMembersOver objects vs ws)

end

namespace Heap

/-- The order of objects, as far as sets inside of sets down to a depth tell them apart. -/
def compareTo (h : Heap) : Nat → Object → Object → Ordering
  | 0, _, _ => .eq
  | depth + 1, o, p =>
    if o.address = p.address then .eq
    else match o, p with
      | .set a _, .set b _ =>
        Value.compareMembersOver (h.compareTo depth) (h.members a) (h.members b)
      | o, p => o.compare p

/-- A depth that is enough: on the way down a comparison that ends meets no two objects twice. -/
def depth (h : Heap) : Nat :=
  h.cells.length * h.cells.length + 1

def compareObjects (h : Heap) : Object → Object → Ordering :=
  h.compareTo h.depth

def compare (h : Heap) : Value → Value → Ordering :=
  Value.compareOver h.compareObjects

/-- The comparison that an object's own type offers. -/
def compareOwn (h : Heap) (o p : Object) : Except Error Ordering :=
  match o, p with
  | .set a _, .set b _ =>
    .ok (Value.compareMembersOver h.compareObjects (h.members a) (h.members b))
  | o, p => o.compareOwn p

def setOf (h : Heap) (items : List Value) : Value :=
  .set (Value.membersBy h.compare items)

end Heap

end TransactionEngine
