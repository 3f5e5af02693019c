import TransactionEngine.Config.Basic
import TransactionEngine.Json.Record

/-! # Loading a configuration

The text of a configuration file is JSON. Every section may be absent; what is unknown is passed
over.
-/

namespace TransactionEngine

open Json (Reader)
open Json.Reader (Record)

namespace Config

/-- The fields of a combo read so far. -/
structure HotkeyDraft where
  name : Option String := none
  codes : Option (List UInt16) := none

def hotkeyRecord : Record HotkeyDraft where
  name := "HotkeyConfig"
  fields :=
    [("name", fun d bs => do
        let (s, n) ← Reader.text "a string" bs
        pure ({ d with name := some s }, n)),
      ("codes", fun d bs => do
        let (l, n) ← Reader.sequence (Reader.unsigned UInt16.size "u16") bs
        pure ({ d with codes := some (l.map UInt16.ofNat) }, n))]
  holds d name :=
    if name = "name" then d.name.isSome else if name = "codes" then d.codes.isSome else false
  required := ["name", "codes"]

def hotkey : Reader HotkeyEntry := fun bs => do
  let (d, n) ← hotkeyRecord.read {} bs
  pure (⟨d.name.getD "", d.codes.getD []⟩, n)

def stackRecord : Record (Option UInt64) where
  name := "StackConfig"
  fields :=
    [("initial_capacity", fun _ bs => do
        let (k, n) ← Reader.unsigned UInt64.size "usize" bs
        pure (some (UInt64.ofNat k), n))]
  holds d _ := d.isSome
  required := []

/-- The sections read so far. -/
structure Draft where
  socket : Option (Option String) := none
  stack : Option (Option UInt64) := none
  hotkeys : Option (List HotkeyEntry) := none

def record : Record Draft where
  name := "Config"
  fields :=
    [("socket", fun d bs => do
        let (s, n) ← Reader.optional (Reader.text "path string") bs
        pure ({ d with socket := some s }, n)),
      ("stack", fun d bs => do
        let (k, n) ← stackRecord.read none bs
        pure ({ d with stack := some k }, n)),
      ("hotkeys", fun d bs => do
        let (l, n) ← Reader.sequence hotkey bs
        pure ({ d with hotkeys := some l }, n))]
  holds d name :=
    if name = "socket" then d.socket.isSome
    else if name = "stack" then d.stack.isSome
    else if name = "hotkeys" then d.hotkeys.isSome
    else false
  required := []

/-- The configuration of its sections; what is absent is as usual. -/
def ofDraft (d : Draft) : Config :=
  ⟨d.socket.getD default.socket, (d.stack.bind id).getD default.initialCapacity,
    d.hotkeys.getD default.hotkeys⟩

def parse (bs : Json.Bytes) : Except Json.Fault Config := do
  let d ← Json.readWhole (record.read {}) bs
  pure (ofDraft d)

/-- Why a configuration could not be loaded. -/
inductive LoadError where
  | unreadable (path reason : String)
  | faulty (path reason : String)
deriving DecidableEq, Repr

def LoadError.message : LoadError → String
  | unreadable path reason => "config error: failed to read " ++ path ++ ": " ++ reason
  | faulty path reason => "config error: failed to parse " ++ path ++ ": " ++ reason

/-- The configuration in a file, given what reading the file came to. -/
def load (path : String) (content : Except String String) : Except LoadError Config :=
  match content with
  | .error reason => .error (.unreadable path reason)
  | .ok text =>
    let bs := Text.bytes text
    match parse bs with
    | .ok c => .ok c
    | .error f => .error (.faulty path (f.inText bs))

end Config

end TransactionEngine
