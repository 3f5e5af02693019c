import TransactionEngine.Combo.Basic
import TransactionEngine.SparseTable

/-! # Tries of combos

Every combo is a path of codes from the root; the node at its end holds it.
-/

namespace TransactionEngine

/-- A node of a trie with the combo that ends there, and all that is below it. -/
structure Trie where
  combo : Option Combo
  children : SparseTable Trie

namespace Trie

def empty : Trie :=
  ⟨none, .empty⟩

instance : Inhabited Trie := ⟨empty⟩

def isLeaf (t : Trie) : Bool :=
  t.children.isEmpty

def isUnused (t : Trie) : Bool :=
  t.combo.isNone && t.isLeaf

def next (t : Trie) (code : UInt16) : Option Trie :=
  t.children.get? code

def walk (t : Trie) : List UInt16 → Option Trie
  | [] => some t
  | code :: codes => (t.next code).bind (walk · codes)

/-- Puts a combo at the end of a path, with new nodes on the way where there are none. Only the end
tells whether it is free: a combo that ends there already stays, and is given back. -/
def place (c : Combo) (t : Trie) : List UInt16 → Option Combo × Trie
  | [] =>
    match t.combo with
    | some holder => (some holder, t)
    | none => (none, { t with combo := some c })
  | code :: codes =>
    let (child, children) := t.children.insertNew code empty
    let (holder, child) := place c child codes
    (holder, { t with children := children.set code child })

/-- Adds a combo; no two have the same codes. -/
def insert (t : Trie) (c : Combo) : Except Error Trie :=
  match t.place c c.codes with
  | (none, t) => .ok t
  | (some holder, _) => .error (.comboTaken c.codes holder.name)

/-- Removes the combo at the end of a path, and the nodes that are of no use then. -/
def eraseAt (t : Trie) : List UInt16 → Option (Combo × Trie)
  | [] => t.combo.map fun c => (c, { t with combo := none })
  | code :: codes => do
    let child ← t.next code
    let (c, child) ← eraseAt child codes
    let children :=
      if child.isUnused then (t.children.erase code).2 else t.children.set code child
    pure (c, { t with children })

/-- Removes the combo with these codes; also gives it. -/
def erase (t : Trie) (codes : List UInt16) : Except Error (Combo × Trie) :=
  match t.eraseAt codes with
  | some removed => .ok removed
  | none => .error (.unknownCombo codes)

end Trie

end TransactionEngine
