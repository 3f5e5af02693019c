/-! # Kinds of values

The kinds in the order in which values of different kinds are compared.
-/

namespace TransactionEngine

/-- What a value is. -/
inductive Kind where
  | nil
  | bool
  | int
  | string
  | object
  | set
  | named
deriving DecidableEq, Repr

namespace Kind

/-- The place of a kind in the order of kinds. -/
def rank : Kind → Nat
  | nil => 0
  | bool => 1
  | int => 2
  | string => 3
  | object => 4
  | set => 5
  | named => 6

def name : Kind → String
  | nil => "nil"
  | bool => "bool"
  | int => "int"
  | string => "string"
  | object => "object"
  | set => "set"
  | named => "named"

theorem rank_injective {a b : Kind} (h : a.rank = b.rank) : a = b := by
  cases a <;> cases b <;> simp_all [rank]

end Kind

end TransactionEngine
