import TransactionEngine.Session

/-! # Connections at the same time

Every connection is served on its own, and all of them ask one engine. Requests wait in a queue;
the answer to a request comes back through a channel of its own. Whoever can make a move may make
the next one, so the moves of the connections and of the engine mix in any order. One move holds no
more than one use of the queue or of a channel.
-/

namespace TransactionEngine.Session

/-- A message on its way to the engine, with the number of the connection it came through and the
channel that the answer is put into. -/
structure Request where
  client : Nat
  context : Object
  incoming : Incoming
  channel : Nat

/-- What a connection is about. -/
inductive Activity where
  | reading
  | waiting (channel : Nat)
  | closed
deriving DecidableEq, Repr

/-- A connection: what it read and what is still to be read, and what it wrote, first one first. -/
structure Client where
  connection : Object
  past : List Item
  items : List Item
  activity : Activity
  written : List Reply

/-- A connection with a number, before it has read anything. -/
def Client.open (n : Nat) (items : List Item) : Client :=
  ⟨.connection n (UInt64.ofNat n), [], items, .reading, []⟩

/-- What the engine is about. When it was asked to end it leaves, and then gives up the queue. -/
inductive Duty where
  | idle
  | handling (r : Request)
  | leaving
  | gone

namespace Duty

def inHand : Duty → List Request
  | handling r => [r]
  | _ => []

def isOver : Duty → Bool
  | leaving | gone => true
  | idle | handling _ => false

def isGone : Duty → Bool
  | gone => true
  | _ => false

end Duty

/-- An engine with the connections that it serves, numbered from one. Of the requests, `sent` are all
that were put into the queue, and `queue` those that wait; the answers wait in their channels. -/
structure System where
  engine : Engine
  duty : Duty
  sent : List Request
  queue : List Request
  handled : List (Request × Reply)
  answers : List (Nat × Reply)
  clients : List Client

/-- Something that happens. The engine takes a request, handles it and answers; a connection receives
the answer it waits for. -/
inductive Move where
  | connect (items : List Item)
  | read (client : Nat)
  | take
  | answer
  | leave
  | receive (client : Nat)

namespace System

def ofEngine (engine : Engine) : System :=
  ⟨engine, .idle, [], [], [], [], []⟩

def client? (s : System) : Nat → Option Client
  | 0 => none
  | n + 1 => s.clients[n]?

def setClient (s : System) (n : Nat) (c : Client) : System :=
  { s with clients := s.clients.set (n - 1) c }

def addClient (s : System) (items : List Item) : System :=
  { s with clients := s.clients ++ [.open (s.clients.length + 1) items] }

/-- A connection is opened, unless the 64 bits of a number have run out. -/
def connect (s : System) (items : List Item) : Option System :=
  if s.clients.length + 1 < UInt64.size then some (s.addClient items) else none

/-- Puts a message of a connection into the queue, with a channel that no other request has. -/
def send (s : System) (n : Nat) (c : Client) (incoming : Incoming) : System :=
  let r : Request := ⟨n, c.connection, incoming, s.sent.length⟩
  { s.setClient n { c with activity := .waiting r.channel } with
    sent := s.sent ++ [r]
    queue := s.queue ++ [r] }

/-- A connection deals with its next item; at the end of its items it closes. A message is put
into the queue unless the queue was given up, which closes the connection. -/
def read (s : System) (n : Nat) : Option System := do
  let c ← s.client? n
  if c.activity ≠ .reading then none
  else match c.items with
    | [] => some (s.setClient n { c with activity := .closed })
    | item :: items =>
      let c := { c with past := c.past ++ [item], items }
      match item.verdict with
      | .close last =>
        some (s.setClient n { c with activity := .closed, written := c.written ++ last.toList })
      | .refuse reply => some (s.setClient n { c with written := c.written ++ [reply] })
      | .pass incoming =>
        if s.duty.isGone then some (s.setClient n { c with activity := .closed })
        else some (s.send n c incoming)

def take (s : System) : Option System :=
  match s.duty, s.queue with
  | .idle, r :: queue => some { s with duty := .handling r, queue }
  | _, _ => none

/-- The engine handles the request it took and puts the answer into its channel. When it was asked
to end it takes no more. -/
def answer (host : Host) (s : System) : Option System :=
  match s.duty with
  | .handling r => do
    let a ← s.engine.handle host r.incoming (some r.context)
    pure { s with
      engine := a.engine
      duty := if a.engine.exitRequested then .leaving else .idle
      handled := s.handled ++ [(r, a.reply)]
      answers := s.answers ++ [(r.channel, a.reply)] }
  | _ => none

/-- The engine gives up the queue, and the requests that wait with it. -/
def leave (s : System) : Option System :=
  match s.duty with
  | .leaving => some { s with duty := .gone, queue := [] }
  | _ => none

/-- Whether an answer can still come through a channel. -/
def awaits (s : System) (channel : Nat) : Bool :=
  (s.duty.inHand ++ s.queue).any fun r => r.channel = channel

/-- A connection writes the answer it waited for, or closes because its request was given up. -/
def receive (s : System) (n : Nat) : Option System := do
  let c ← s.client? n
  match c.activity with
  | .waiting channel =>
    match s.answers.lookup channel with
    | some reply =>
      let s := s.setClient n { c with activity := .reading, written := c.written ++ [reply] }
      some { s with answers := s.answers.filter fun (other, _) => other ≠ channel }
    | none =>
      if s.awaits channel then none else some (s.setClient n { c with activity := .closed })
  | _ => none

/-- What a move leads to; `none` when it cannot be made, or never ends. -/
def move (host : Host) (s : System) : Move → Option System
  | .connect items => s.connect items
  | .read n => s.read n
  | .take => s.take
  | .answer => s.answer host
  | .leave => s.leave
  | .receive n => s.receive n

def run (host : Host) (s : System) (moves : List Move) : Option System :=
  moves.foldlM (move host) s

end System

end TransactionEngine.Session
