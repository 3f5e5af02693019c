import TransactionEngine.Combo.Trie

/-! # Matching combos

Pressed keys lead down the trie; a key that leads nowhere leads back to the root. Once no key is
pressed any more, the combo that was reached is complete, and the next one starts at the root.
-/

namespace TransactionEngine

/-- What a key did. -/
inductive KeyState where
  | down
  | up
  | held
deriving DecidableEq, Repr

def KeyState.name : KeyState → String
  | down => "down"
  | up => "up"
  | held => "repeat"

/-- A key and what it did. -/
structure KeyEvent where
  code : UInt16
  state : KeyState
deriving DecidableEq, Repr

/-- A trie, the codes that lead to where the pressed keys have come, and how many keys are
pressed. -/
structure Matcher where
  trie : Trie
  cursor : List UInt16
  pressed : Nat

namespace Matcher

def empty : Matcher :=
  ⟨.empty, [], 0⟩

def add (m : Matcher) (name : String) (codes : List UInt16) : Except Error Matcher := do
  let c ← Combo.ofCodes name codes
  let trie ← m.trie.insert c
  pure { m with trie }

/-- Removes a combo and goes back to the root. -/
def remove (m : Matcher) (codes : List UInt16) : Except Error Matcher := do
  let (_, trie) ← m.trie.erase codes
  pure { m with trie, cursor := [] }

/-- Takes in a key event; also gives the names of the combos it completed. -/
def feed (m : Matcher) (e : KeyEvent) : List String × Matcher :=
  match e.state with
  | .down =>
    let cursor := m.cursor ++ [e.code]
    let cursor := if (m.trie.walk cursor).isSome then cursor else []
    ([], { m with cursor, pressed := m.pressed + 1 })
  | .up =>
    let pressed := m.pressed - 1
    if 0 < pressed then ([], { m with pressed })
    else
      let fired := ((m.trie.walk m.cursor).bind Trie.combo).map Combo.name
      (fired.toList, { m with cursor := [], pressed })
  | .held => ([], m)

end Matcher

end TransactionEngine
