import TransactionEngine.Json.Writer
import TransactionEngine.Value.Order

/-! # Values as JSON and as text

On the wire a value is an object with one field, named for its kind. In texts a value shows what
it holds.
-/

namespace TransactionEngine

mutual

def Value.toJson : Value → Json
  | .nil => .object [("nil", .null)]
  | .bool b => .object [("bool", .bool b)]
  | .int n => .object [("int", .int n.toInt)]
  | .string s => .object [("string", .string s)]
  | .null => .object [("object", .null)]
  | .object o => .object [("object", o.toJson)]
  | .set members => .object [("set", .array (Value.toJsons members))]
  | .named name v => .object [("named", .object [("name", .string name), ("value", v.toJson)])]

/-- The wire form of an object: what it holds, or else the name of its type. -/
def Object.toJson : Object → Json
  | .connection _ id => .object [("connection", .int id.toNat)]
  | .set _ members => .array (Value.toJsons members)
  | .plugin _ type => .object [("type", .string type)]

def Value.toJsons : List Value → List Json
  | [] => []
  | v :: vs => v.toJson :: Value.toJsons vs

end

/-- What an object holds, if its type offers to show it. -/
def Object.dump : Object → Except Error Json
  | .plugin _ type => .error (.unsupported type .dump)
  | o => .ok o.toJson

def Object.display : Object → String
  | .plugin _ type => "<" ++ type ++ ">"
  | o => o.toJson.compact

mutual

def Value.display : Value → String
  | .nil => "nil"
  | .bool b => toString b
  | .int n => Error.showInt n
  | .string s => s
  | .null => "null"
  | .object o => o.display
  | .set members => "\x7b" ++ ", ".intercalate (Value.displays members) ++ "\x7d"
  | .named name v => name ++ "=" ++ v.display

/-- Values in a text, one by one. -/
def Value.displays : List Value → List String
  | [] => []
  | v :: vs => v.display :: Value.displays vs

end

end TransactionEngine
