import TransactionEngine.Json.Writer
import TransactionEngine.Text.Quoted

/-! # Documents of the wrong shape

What can be wrong with a well-formed document that should fill the fields of a record: kinds,
ranges, names and numbers of its parts, and the words for it.
-/

namespace TransactionEngine.Json

/-- What stands in a document where something else was wanted. -/
inductive Found where
  | null
  | bool (b : Bool)
  | int (n : Int)
  | double (d : Double)
  | string (s : String)
  | sequence
  | map
deriving DecidableEq

/-- What a document is, one level deep. -/
def found : Json → Found
  | null => .null
  | bool b => .bool b
  | int n => .int n
  | double d => .double d
  | string s => .string s
  | array _ => .sequence
  | object _ => .map

def Found.text : Found → String
  | null => "null"
  | bool b => "boolean `" ++ toString b ++ "`"
  | int n => "integer `" ++ String.ofList (intChars n) ++ "`"
  | double d => "floating point `" ++ d.text ++ "`"
  | string s => "string " ++ Text.quoted s
  | sequence => "sequence"
  | map => "map"

/-- A way in which a document does not fill a record. -/
inductive ShapeFault where
  | wrongType (found : Found) (wanted : String)
  | outOfRange (n : Int) (wanted : String)
  | notOneKey
  | unknownField (name : String) (known : List String)
  | unknownVariant (name : String) (known : List String)
  | missingField (name : String)
  | duplicateField (name : String)
  | tooFew (count : Nat) (record : String) (fields : Nat)
  | tooMany (count : Nat)
deriving DecidableEq

/-- Names between backquotes, with commas between them. -/
def nameList (names : List String) : String :=
  ", ".intercalate (names.map fun name => "`" ++ name ++ "`")

def ShapeFault.message : ShapeFault → String
  | wrongType found wanted => "invalid type: " ++ found.text ++ ", expected " ++ wanted
  | outOfRange n wanted => "invalid value: " ++ (Found.int n).text ++ ", expected " ++ wanted
  | notOneKey => "invalid value: map, expected map with a single key"
  | unknownField name known =>
    "unknown field `" ++ name ++ "`, expected one of " ++ nameList known
  | unknownVariant name known =>
    "unknown variant `" ++ name ++ "`, expected one of " ++ nameList known
  | missingField name => "missing field `" ++ name ++ "`"
  | duplicateField name => "duplicate field `" ++ name ++ "`"
  | tooFew count record fields =>
    "invalid length " ++ toString count ++ ", expected struct " ++ record ++ " with " ++
      toString fields ++ " elements"
  | tooMany count =>
    "invalid length " ++ toString count ++ ", expected fewer elements in array"

end TransactionEngine.Json
