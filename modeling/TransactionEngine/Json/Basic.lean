import TransactionEngine.Json.Double

/-! # JSON documents

Documents as trees. The fields of an object are kept as a list of pairs; documents that were read
hold them in increasing order of their keys, each key once.
-/

namespace TransactionEngine

/-- A JSON document. -/
inductive Json where
  | null
  | bool (b : Bool)
  | int (n : Int)
  | double (d : Json.Double)
  | string (s : String)
  | array (items : List Json)
  | object (fields : List (String × Json))
deriving Inhabited

namespace Json

/-- Sets a field among fields in key order; a field of the same key is replaced. -/
def setField (key : String) (value : Json) : List (String × Json) → List (String × Json)
  | [] => [(key, value)]
  | (k, v) :: fields =>
    match compare key k with
    | .lt => (key, value) :: (k, v) :: fields
    | .eq => (key, value) :: fields
    | .gt => (k, v) :: setField key value fields

/-- Fields in key order, the last of each key. -/
def sortFields (fields : List (String × Json)) : List (String × Json) :=
  fields.foldl (fun sorted (k, v) => setField k v sorted) []

def field? (key : String) : Json → Option Json
  | object fields => fields.lookup key
  | _ => none

/-- The number as an unsigned integer of 64 bits. -/
def asUInt64? : Json → Option UInt64
  | int n => if 0 ≤ n && n < UInt64.size then some (UInt64.ofNat n.toNat) else none
  | _ => none

/-- The number as a signed integer of 64 bits. -/
def asInt64? : Json → Option Int64
  | int n => if Int64.minValue.toInt ≤ n && n ≤ Int64.maxValue.toInt then some (Int64.ofInt n) else none
  | _ => none

/-- The text, if the document is one. -/
def asString? : Json → Option String
  | string s => some s
  | _ => none

end Json

end TransactionEngine
