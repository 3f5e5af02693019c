import TransactionEngine.Dictionary
import TransactionEngine.Processor.Run
import TransactionEngine.Reply
import TransactionEngine.Transaction

/-! # The registry

Named transactions, the events they are bound to, and the stack they run on. Whatever is asked of
the registry either comes to an end, or runs a program for ever: then there is no answer.
-/

namespace TransactionEngine

/-- The transactions of an engine and the names that are bound to events, in the order in which they
were bound, with its stack and whether a transaction asked for the end. -/
structure Registry where
  stack : Stack
  transactions : Dictionary Transaction
  bindings : Dictionary (List String)
  exitRequested : Bool

/-- The registry and what it did. -/
structure Handled (α : Type) where
  registry : Registry
  answer : α
  effects : List Effect

namespace Registry

def ofCapacity (capacity : Nat) : Registry :=
  ⟨.ofCapacity capacity, [], [], false⟩

def transaction? (r : Registry) (name : String) : Option Transaction :=
  r.transactions.get? name

def bound (r : Registry) (event : String) : List String :=
  (r.bindings.get? event).getD []

/-- Runs a program in a frame of its own. The wish to end counts only if the program ends well. -/
def execute (host : Host) (r : Registry) (program : List Statement) (context : Option Object) :
    Option (Handled (Except Error (Option Value))) :=
  (Processor.run host program (.start r.stack context)).map fun run =>
    let stack := run.processor.close
    match run.outcome with
    | .ok halt =>
      ⟨{ r with stack, exitRequested := r.exitRequested || run.processor.exitRequested },
        .ok halt.value, run.effects⟩
    | .error failure => ⟨{ r with stack }, .error failure.error, run.effects⟩

/-- Keeps a transaction under its name in place of an earlier one. -/
def addTransaction (r : Registry) (t : Transaction) : Registry :=
  { r with transactions := r.transactions.set t.name t }

/-- Binds a registered transaction to an event, after those that are bound already. -/
def register (r : Registry) (event name : String) : Except Error Registry :=
  if (r.transaction? name).isNone then .error (.unknownTransaction name)
  else
    let names := r.bound event
    let names := if names.contains name then names else names ++ [name]
    .ok { r with bindings := r.bindings.set event names }

def unregisterEvent (r : Registry) (event : String) : Except Error Registry :=
  if (r.bindings.get? event).isNone then .error (.unknownEvent event)
  else .ok { r with bindings := r.bindings.erase event }

/-- Removes a transaction. Bindings that name it stay, and count again once there is a
transaction of that name. -/
def unregisterTransaction (r : Registry) (name : String) : Except Error Registry :=
  if (r.transaction? name).isNone then .error (.unknownTransaction name)
  else .ok { r with transactions := r.transactions.erase name }

/-- Keeps a transaction and binds it to its event, if it has one. -/
def keep (r : Registry) (t : Transaction) : Except Error Registry :=
  let r := r.addTransaction t
  match t.event with
  | none => .ok r
  | some event => r.register event t.name

/-- Keeps a transaction after its program gave a value. -/
def keepAfter (h : Handled (Option Value)) (t : Transaction) :
    Handled (Except Error (Option Value)) :=
  match h.registry.keep t with
  | .ok registry => ⟨registry, .ok h.answer, h.effects⟩
  | .error e => ⟨h.registry.addTransaction t, .error e, h.effects⟩

/-- Does with a transaction what its flags say: runs it, then keeps it unless it failed. -/
def processTransaction (host : Host) (r : Registry) (t : Transaction) (context : Option Object) :
    Option (Handled (Except Error (Option Value))) :=
  if t.flags.isEmpty then some ⟨r, .error (.withoutFlags t.name), []⟩
  else if t.flags.exec then
    (execute host r t.statements context).map fun h =>
      match h.answer with
      | .error e => { h with answer := .error e }
      | .ok value =>
        if t.flags.register then keepAfter { h with answer := value } t
        else { h with answer := .ok value }
  else some (keepAfter ⟨r, none, []⟩ t)

/-- Runs the transactions of these names that are registered, one after the other. Whether they
fail is nobody's concern. -/
def fireAll (host : Host) (context : Option Object) :
    Registry → List String → Option (Handled Unit)
  | r, [] => some ⟨r, (), []⟩
  | r, name :: names =>
    match r.transaction? name with
    | none => fireAll host context r names
    | some t => do
      let h ← execute host r t.statements context
      let rest ← fireAll host context h.registry names
      pure { rest with effects := h.effects ++ rest.effects }

def fire (host : Host) (r : Registry) (event : String) (context : Option Object) :
    Option (Handled Unit) :=
  fireAll host context r (r.bound event)

def process (host : Host) (r : Registry) (m : Message) (context : Option Object) :
    Option (Handled Reply) :=
  match m with
  | .transaction t =>
    (processTransaction host r t context).map fun h =>
      match h.answer with
      | .ok value => { h with answer := .value t.id value }
      | .error e => { h with answer := .error (some t.id) e }
  | .event id name =>
    (fire host r name context).map fun h => { h with answer := .value id none }

end Registry

end TransactionEngine
