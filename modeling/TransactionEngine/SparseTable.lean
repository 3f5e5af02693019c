/-! # Sparse tables

A map from 16-bit keys that makes room only for the ranges it uses. Its levels are sixteen slots
wide and take one hexadecimal digit of the key each, the most significant first. A table of depth
`d` covers the keys below `16 ^ d`; a larger key first puts the root into slot 0 of new roots.
-/

namespace TransactionEngine

/-- A level of a table: values, or the levels below it. -/
inductive Level (α : Type) where
  | leaf (slots : List (Option α))
  | branch (slots : List (Option (Level α)))

/-- A map from 16-bit keys: the number of levels from the root down to the values, the uppermost level
unless it is empty, and the number of keys that have a value. -/
@[ext]
structure SparseTable (α : Type) where
  depth : Nat
  root : Option (Level α)
  size : Nat

namespace Level

variable {α : Type}

def width : Nat :=
  16

/-- The slot of a key on the level with `below` levels under it. -/
def slotOf (key : UInt16) (below : Nat) : Nat :=
  key.toNat / Nat.pow width below % width

/-- Slots with nothing in them, but for slot `i`. -/
def slotsWith {β : Type} (i : Nat) (b : β) : List (Option β) :=
  (List.replicate width none).set i (some b)

def slot? {β : Type} (slots : List (Option β)) (i : Nat) : Option β :=
  slots[i]?.join

def isEmpty : Level α → Bool
  | leaf slots => slots.all Option.isNone
  | branch slots => slots.all Option.isNone

/-- A level that holds one key; `below` levels are under it. -/
def single (key : UInt16) (a : α) : Nat → Level α
  | 0 => leaf (slotsWith (slotOf key 0) a)
  | below + 1 => branch (slotsWith (slotOf key (below + 1)) (single key a below))

/-- The value of a key in a level with `below` levels under it. -/
def get? (key : UInt16) : Nat → Level α → Option α
  | below, leaf slots => slot? slots (slotOf key below)
  | 0, branch _ => none
  | below + 1, branch slots => (slot? slots (slotOf key (below + 1))).bind (get? key below)

/-- Sets the value of a key, with new levels on the way where there are none. -/
def set (key : UInt16) (a : α) : Nat → Level α → Level α
  | below, leaf slots => leaf (slots.set (slotOf key below) (some a))
  | 0, branch slots => branch slots
  | below + 1, branch slots =>
    let i := slotOf key (below + 1)
    match slot? slots i with
    | some level => branch (slots.set i (some (set key a below level)))
    | none => branch (slots.set i (some (single key a below)))

def nonempty? (level : Level α) : Option (Level α) :=
  if level.isEmpty then none else some level

/-- Clears the slot of a key, and frees the levels that this leaves empty. -/
def erase (key : UInt16) : Nat → Level α → Level α
  | below, leaf slots => leaf (slots.set (slotOf key below) none)
  | 0, branch slots => branch slots
  | below + 1, branch slots =>
    let i := slotOf key (below + 1)
    match slot? slots i with
    | some level => branch (slots.set i (erase key below level).nonempty?)
    | none => branch slots

end Level

namespace SparseTable

variable {α : Type}

def empty : SparseTable α :=
  ⟨1, none, 0⟩

instance : Inhabited (SparseTable α) := ⟨empty⟩

def isEmpty (t : SparseTable α) : Bool :=
  t.size == 0

/-- The number of hexadecimal digits of a key, at least one. -/
def digits (key : UInt16) : Nat :=
  if key.toNat < 16 then 1
  else if key.toNat < 256 then 2
  else if key.toNat < 4096 then 3
  else 4

def covers (t : SparseTable α) (key : UInt16) : Bool :=
  digits key ≤ t.depth

def get? (t : SparseTable α) (key : UInt16) : Option α :=
  if t.covers key then t.root.bind (Level.get? key (t.depth - 1)) else none

/-- A level under `n` new ones, always in slot 0. -/
def wrap : Nat → Level α → Level α
  | 0, level => level
  | n + 1, level => wrap n (.branch (Level.slotsWith 0 level))

/-- The table, deep enough to cover a key. -/
def growTo (t : SparseTable α) (key : UInt16) : SparseTable α :=
  let depth := max t.depth (digits key)
  { t with depth, root := t.root.map (wrap (depth - t.depth)) }

def set (t : SparseTable α) (key : UInt16) (a : α) : SparseTable α :=
  let size := if (t.get? key).isSome then t.size else t.size + 1
  let t := t.growTo key
  let below := t.depth - 1
  { t with
    root := some ((t.root.map (Level.set key a below)).getD (Level.single key a below)), size }

/-- Gives a key a value if it has none; also gives the value it has then. -/
def insertNew (t : SparseTable α) (key : UInt16) (a : α) : α × SparseTable α :=
  match t.get? key with
  | some b => (b, t)
  | none => (a, t.set key a)

/-- Changes the value of a key, if it has one; also gives the new value. -/
def modify (t : SparseTable α) (key : UInt16) (f : α → α) : Option α × SparseTable α :=
  match t.get? key with
  | some a => (some (f a), t.set key (f a))
  | none => (none, t)

/-- Removes a key; also gives the value it had. A table that this leaves empty starts anew. -/
def erase (t : SparseTable α) (key : UInt16) : Option α × SparseTable α :=
  match t.get? key with
  | none => (none, t)
  | some a =>
    match t.root.bind fun level => (level.erase key (t.depth - 1)).nonempty? with
    | none => (some a, { t with depth := 1, root := none, size := t.size - 1 })
    | some level => (some a, { t with root := some level, size := t.size - 1 })

end SparseTable

end TransactionEngine
