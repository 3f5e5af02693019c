import TransactionEngine.Error

/-! # Values and objects

Values live on the stack. A value may refer to an object; the reference stands in the value as
the object itself: its address, by which two references to one object are told from references
to two alike, and what it holds now.
-/

namespace TransactionEngine

mutual

/-- A value; `null` is a reference to no object. The members of a set are kept in increasing order. A
set in a value has no identity of its own: it is what its members are. Sets that are shared, and
change for all who share them, stand behind references. -/
inductive Value where
  | nil
  | bool (b : Bool)
  | int (n : Int64)
  | string (s : String)
  | null
  | object (o : Object)
  | set (members : List Value)
  | named (name : String) (value : Value)

/-- An object, as a reference to it shows it: the connection of a client, a set that its owners share,
or an object whose type is defined elsewhere, under any name. -/
inductive Object where
  | connection (address : Nat) (id : UInt64)
  | set (address : Nat) (members : List Value)
  | plugin (address : Nat) (type : String)

end

instance : Inhabited Value := ⟨.nil⟩

namespace Object

/-- Where the object is; no two objects are in one place. -/
def address : Object → Nat
  | connection a _ => a
  | set a _ => a
  | plugin a _ => a

def typeName : Object → String
  | connection .. => "connection"
  | set .. => "set"
  | plugin _ type => type

def connectionId? : Object → Option UInt64
  | connection _ id => some id
  | _ => none

end Object

namespace Value

def kind : Value → Kind
  | nil => .nil
  | bool _ => .bool
  | int _ => .int
  | string _ => .string
  | null => .object
  | object _ => .object
  | set _ => .set
  | named .. => .named

def isNil : Value → Bool
  | nil => true
  | _ => false

def asInt : Value → Except Error Int64
  | int n => .ok n
  | v => .error (.wrongKind .int v.kind)

def asBool : Value → Except Error Bool
  | bool b => .ok b
  | v => .error (.wrongKind .bool v.kind)

def asString : Value → Except Error String
  | string s => .ok s
  | v => .error (.wrongKind .string v.kind)

def asObject : Value → Except Error Object
  | object o => .ok o
  | null => .error .nullReference
  | v => .error (.wrongKind .object v.kind)

def asMembers : Value → Except Error (List Value)
  | set members => .ok members
  | v => .error (.wrongKind .set v.kind)

/-- A condition: a truth value as it is, an integer unless it is zero. -/
def truthy : Value → Except Error Bool
  | bool b => .ok b
  | int n => .ok (n != 0)
  | v => .error (.wrongKind .bool v.kind)

end Value

end TransactionEngine
