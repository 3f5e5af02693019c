import TransactionEngine.Error

/-! # Combos

A combo is a name for different keys pressed one after the other.
-/

namespace TransactionEngine

/-- A name and the key codes it stands for: at least one, all different. -/
structure Combo where
  name : String
  codes : List UInt16
deriving DecidableEq, Repr

namespace Combo

/-- The first code that stands twice in a list: the earliest one that stands before it already. -/
def firstRepeated (seen : List UInt16) : List UInt16 → Option UInt16
  | [] => none
  | code :: codes =>
    if seen.contains code then some code else firstRepeated (code :: seen) codes

def ofCodes (name : String) (codes : List UInt16) : Except Error Combo :=
  if codes.isEmpty then .error (.comboWithoutCodes name)
  else match firstRepeated [] codes with
    | some code => .error (.comboRepeats name code)
    | none => .ok ⟨name, codes⟩

/-- The name and the codes of a combo in one line. -/
def display (c : Combo) : String :=
  c.name ++ " " ++ Error.showCodes c.codes

end Combo

end TransactionEngine
