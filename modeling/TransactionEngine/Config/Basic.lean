import TransactionEngine.Json.Writer

/-! # Configuration

Where the engine listens, the room its stack is made with, and the combos it knows at the start.
-/

namespace TransactionEngine

/-- A combo in the configuration: keys pressed in order, and the event they fire. -/
structure HotkeyEntry where
  name : String
  codes : List UInt16
deriving DecidableEq, Repr

def HotkeyEntry.toJson (h : HotkeyEntry) : Json :=
  .object [("name", .string h.name), ("codes", .array (h.codes.map fun code => .int code.toNat))]

/-- The configuration. -/
structure Config where
  socket : Option String
  initialCapacity : UInt64
  hotkeys : List HotkeyEntry
deriving DecidableEq, Repr

namespace Config

def default : Config :=
  ⟨none, 16, []⟩

def joinPath (directory name : String) : String :=
  if directory.isEmpty then name
  else if directory.toList.getLast? = some '/' then directory ++ name
  else directory ++ "/" ++ name

/-- The path of the socket; the usual one is in the directory for sockets. -/
def socketPath (c : Config) (directory : String) : String :=
  c.socket.getD (joinPath directory "waysome.sock")

def toJson (c : Config) : Json :=
  .object
    [("socket", (c.socket.map Json.string).getD .null),
      ("stack", .object [("initial_capacity", .int c.initialCapacity.toNat)]),
      ("hotkeys", .array (c.hotkeys.map HotkeyEntry.toJson))]

def text (c : Config) : String :=
  c.toJson.compact

end Config

end TransactionEngine
