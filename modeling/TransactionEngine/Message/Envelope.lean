import TransactionEngine.Combo.Matcher
import TransactionEngine.Json.Shape

/-! # The fields of a message

A message is a JSON object with known fields, or a list of the fields' values in their order. The
fields of an object are taken in the order of their keys, and the first fault counts.
-/

namespace TransactionEngine

inductive MessageType where
  | transaction
  | event
  | input
deriving DecidableEq, Repr

structure Envelope where
  uid : UInt64
  type : MessageType
  name : Option String
  flags : List String
  event : Option String
  cmds : List (List (String × Json))
  code : Option UInt16
  state : Option KeyState

namespace Envelope

open Json (ShapeFault)

/-- The names of the fields, in the order of their values in a list. -/
def fieldNames : List String :=
  ["UID", "TYPE", "NAME", "FLAGS", "EVENT", "CMDS", "CODE", "STATE"]

/-- The fields read so far. -/
structure Draft where
  uid : Option UInt64 := none
  type : Option MessageType := none
  name : Option String := none
  flags : Option (List String) := none
  event : Option String := none
  cmds : Option (List (List (String × Json))) := none
  code : Option UInt16 := none
  state : Option KeyState := none

def mismatch {α : Type} (j : Json) (wanted : String) : Except ShapeFault α :=
  .error (.wrongType j.found wanted)

def unsigned (limit : Nat) (wanted : String) : Json → Except ShapeFault Nat
  | .int n => if 0 ≤ n ∧ n < limit then .ok n.toNat else .error (.outOfRange n wanted)
  | j => mismatch j wanted

def text : Json → Except ShapeFault String
  | .string s => .ok s
  | j => mismatch j "a string"

def sequence {α : Type} (item : Json → Except ShapeFault α) : Json → Except ShapeFault (List α)
  | .array items => items.mapM item
  | j => mismatch j "a sequence"

def mapping : Json → Except ShapeFault (List (String × Json))
  | .object fields => .ok fields
  | j => mismatch j "a map"

def optional {α : Type} (item : Json → Except ShapeFault α) : Json → Except ShapeFault (Option α)
  | .null => .ok none
  | j => (item j).map some

def variant {α : Type} (words : List (String × α)) (word : String) : Except ShapeFault α :=
  match words.lookup word with
  | some a => .ok a
  | none => .error (.unknownVariant word (words.map Prod.fst))

/-- One of some words, or an object whose only key is one of them and holds null. -/
def choice {α : Type} (words : List (String × α)) : Json → Except ShapeFault α
  | .string word => variant words word
  | .object [(word, content)] => do
    let a ← variant words word
    match content with
    | .null => pure a
    | j => mismatch j "unit"
  | .object _ => .error .notOneKey
  | j => mismatch j "string or map"

def types : List (String × MessageType) :=
  [("transaction", .transaction), ("event", .event), ("input", .input)]

def states : List (String × KeyState) :=
  [KeyState.down, .up, .held].map fun s => (s.name, s)

def setField (d : Draft) (name : String) (j : Json) : Except ShapeFault Draft :=
  match name with
  | "UID" => (unsigned UInt64.size "u64" j).map fun n => { d with uid := some (UInt64.ofNat n) }
  | "TYPE" => (choice types j).map fun t => { d with type := some t }
  | "NAME" => (optional text j).map fun s => { d with name := s }
  | "FLAGS" => (sequence text j).map fun l => { d with flags := some l }
  | "EVENT" => (optional text j).map fun s => { d with event := s }
  | "CMDS" => (sequence mapping j).map fun l => { d with cmds := some l }
  | "CODE" =>
    (optional (unsigned UInt16.size "u16") j).map fun n => { d with code := n.map UInt16.ofNat }
  | "STATE" => (optional (choice states) j).map fun s => { d with state := s }
  | _ => .error (.unknownField name fieldNames)

def setFields (d : Draft) : List (String × Json) → Except ShapeFault Draft
  | [] => .ok d
  | (name, j) :: fields => do
    let d ← setField d name j
    setFields d fields

/-- The message of a draft; only its number and its type must be there. -/
def Draft.finish (d : Draft) : Except ShapeFault Envelope :=
  match d.uid, d.type with
  | none, _ => .error (.missingField "UID")
  | _, none => .error (.missingField "TYPE")
  | some uid, some type =>
    .ok ⟨uid, type, d.name, d.flags.getD [], d.event, d.cmds.getD [], d.code, d.state⟩

/-- Whether a field may be absent from the end of a list. -/
def mayBeAbsent (name : String) : Bool :=
  name = "FLAGS" || name = "CMDS"

/-- The fields in the order of their names; the place of the first one that is absent and must not
be is an error. -/
def setPlaces (d : Draft) : Nat → List String → List Json → Except ShapeFault Draft
  | _, [], _ => .ok d
  | place, name :: names, j :: items => do
    let d ← setField d name j
    setPlaces d (place + 1) names items
  | place, name :: names, [] =>
    if mayBeAbsent name then setPlaces d (place + 1) names []
    else .error (.tooFew place "Envelope" fieldNames.length)

def ofJson : Json → Except ShapeFault Envelope
  | .object fields => do
    let d ← setFields {} fields
    d.finish
  | .array items => do
    let d ← setPlaces {} 0 fieldNames items
    if fieldNames.length < items.length then .error (.tooMany items.length) else d.finish
  | j => mismatch j "struct Envelope"

end Envelope

end TransactionEngine
