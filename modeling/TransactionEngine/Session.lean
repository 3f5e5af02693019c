import TransactionEngine.Engine
import TransactionEngine.Json.Document

/-! # Connections

A connection carries a stream of messages, and each is answered before the next one is read. What
is no message is refused and the stream goes on; what is no JSON ends it.
-/

namespace TransactionEngine

/-- What the reader of a connection yields: documents, and then that the text is no JSON from there on,
or ends inside a document, or could not be read. -/
inductive Item where
  | document (j : Json)
  | malformed (words : String)
  | truncated
  | unreadable

def Item.ofBytes (bs : Json.Bytes) : List Item :=
  (Json.documents bs).map fun
    | .ok j => .document j
    | .error f => if f.isEnd then .truncated else .malformed (f.inStream bs)

/-- What is done about an item: the connection ends after a last reply if there is one, or the item is
refused with a reply, or passed on to be answered. -/
inductive Verdict where
  | close (last : Option Reply)
  | refuse (reply : Reply)
  | pass (incoming : Incoming)

def Item.verdict : Item → Verdict
  | .malformed words => .close (some (.error none (.badText words)))
  | .truncated => .close none
  | .unreadable => .close none
  | .document j =>
    match Incoming.decode j with
    | .error e => .refuse e.reply
    | .ok incoming => .pass incoming

namespace Session

/-- Serves a connection. `ask` passes a message on and gives the answer; `none` when nobody
answers any more. The result are the replies that were written, in order. -/
def serve {σ : Type} (ask : σ → Incoming → Option Reply × σ) (s : σ) :
    List Item → List Reply × σ
  | [] => ([], s)
  | item :: items =>
    match item.verdict with
    | .close last => (last.toList, s)
    | .refuse reply =>
      let (replies, s) := serve ask s items
      (reply :: replies, s)
    | .pass incoming =>
      match ask s incoming with
      | (none, s) => ([], s)
      | (some reply, s) =>
        let (replies, s) := serve ask s items
        (reply :: replies, s)

/-- An engine that answers until it has stopped, or is busy for ever, and what it did so far. -/
structure Server where
  engine : Engine
  stopped : Bool
  effects : List Effect

namespace Server

def ofEngine (engine : Engine) : Server :=
  ⟨engine, false, []⟩

/-- Answers a message that came through a connection, and stops after one that asked for the
end. -/
def ask (host : Host) (context : Option Object) (s : Server) (incoming : Incoming) :
    Option Reply × Server :=
  if s.stopped then (none, s)
  else match s.engine.handle host incoming context with
    | none => (none, { s with stopped := true })
    | some a =>
      (some a.reply, ⟨a.engine, a.engine.exitRequested, s.effects ++ a.effects⟩)

/-- Serves connections one after the other. They are numbered from `id` on. -/
def serveAll (host : Host) (s : Server) (id : Nat) :
    List (List Item) → List (List Reply) × Server
  | [] => ([], s)
  | items :: connections =>
    let context := Object.connection id (UInt64.ofNat id)
    let (replies, s) := serve (ask host (some context)) s items
    let (rest, s) := serveAll host s (id + 1) connections
    (replies :: rest, s)

end Server

end Session

end TransactionEngine
