/-! # Checked arithmetic

Operations on 64-bit integers that have no result when the exact one does not fit.
-/

namespace TransactionEngine.Arithmetic

/-- The integer in 64 bits, if it fits. -/
def narrow (n : Int) : Option Int64 :=
  if Int64.minValue.toInt ≤ n ∧ n ≤ Int64.maxValue.toInt then some (Int64.ofInt n) else none

def add (a b : Int64) : Option Int64 :=
  narrow (a.toInt + b.toInt)

def sub (a b : Int64) : Option Int64 :=
  narrow (a.toInt - b.toInt)

def mul (a b : Int64) : Option Int64 :=
  narrow (a.toInt * b.toInt)

/-- The quotient, rounded toward zero; there is none by zero. -/
def div (a b : Int64) : Option Int64 :=
  if b = 0 then none else narrow (a.toInt.tdiv b.toInt)

/-- The remainder of a division that has a quotient; it has the sign of the dividend. -/
def mod (a b : Int64) : Option Int64 :=
  (div a b).bind fun _ => narrow (a.toInt.tmod b.toInt)

end TransactionEngine.Arithmetic
