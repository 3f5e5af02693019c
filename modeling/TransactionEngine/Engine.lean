import TransactionEngine.Config.Basic
import TransactionEngine.Message.Decode
import TransactionEngine.Registry

/-! # The engine

The engine owns the registry and the matcher and answers one message at a time.
-/

namespace TransactionEngine

/-- A registry and a matcher. -/
structure Engine where
  registry : Registry
  matcher : Matcher

/-- The engine after a message, the answer, and what was done. -/
structure Answered where
  engine : Engine
  reply : Reply
  effects : List Effect

namespace Engine

/-- The combos of a configuration in a matcher, from the first one on. -/
def addHotkeys (m : Matcher) : List HotkeyEntry → Except Error Matcher
  | [] => .ok m
  | h :: hotkeys => do
    let m ← m.add h.name h.codes
    addHotkeys m hotkeys

def ofConfig (c : Config) : Except Error Engine := do
  let matcher ← addHotkeys .empty c.hotkeys
  pure ⟨.ofCapacity c.initialCapacity.toNat, matcher⟩

def exitRequested (e : Engine) : Bool :=
  e.registry.exitRequested

/-- The message as the registry gets it: a transaction tells the connection it came through. -/
def stamp (context : Option Object) : Message → Message
  | .transaction t => .transaction { t with connectionId := context.bind Object.connectionId? }
  | m => m

def fireAll (host : Host) (context : Option Object) (id : UInt64) :
    Registry → List String → Option (Handled Unit)
  | r, [] => some ⟨r, (), []⟩
  | r, name :: names => do
    let h ← r.process host (.event id name) context
    let rest ← fireAll host context id h.registry names
    pure { rest with effects := h.effects ++ rest.effects }

/-- Answers a message; there is no answer if a program it runs does not end. A key fires the
events of the combos it completes. -/
def handle (host : Host) (e : Engine) (incoming : Incoming) (context : Option Object) :
    Option Answered :=
  match incoming with
  | .message m =>
    (e.registry.process host (stamp context m) context).map fun h =>
      ⟨{ e with registry := h.registry }, h.answer, h.effects⟩
  | .key id event =>
    let (names, matcher) := e.matcher.feed event
    (fireAll host context id e.registry names).map fun h =>
      ⟨⟨h.registry, matcher⟩, .value id none, h.effects⟩

end Engine

end TransactionEngine
