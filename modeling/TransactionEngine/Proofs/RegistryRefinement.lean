import Mathlib.Data.List.DropRight
import TransactionEngine.Proofs.EngineAnswers
import TransactionEngine.Proofs.RegistryMaps

/-!
# The maps as their history tells them

Messages and calls change the two maps of a registry independently: a binding outlives the
transaction that it names, and a transaction that is replaced stays bound. What stands in either
map is told by the operations that did not fail.
-/

namespace TransactionEngine.Engine

open Registry (enlist)

/-- What an engine and its registry can be asked for. -/
inductive Operation where
  | handle (host : Host) (incoming : Incoming) (context : Option Object)
  | addTransaction (t : Transaction)
  | register (event name : String)
  | unregisterEvent (event : String)
  | unregisterTransaction (name : String)

inductive Outcome where
  | reply (r : Reply)
  | success
  | failure (e : Error)

def Outcome.failed : Outcome → Bool
  | reply r => r.isError
  | success => false
  | failure _ => true

/-- The engine with the registry that a call gave, unless the call failed. -/
def settle (e : Engine) : Except Error Registry → Outcome × Engine
  | .ok r => (.success, { e with registry := r })
  | .error error => (.failure error, e)

/-- What an operation comes to, unless it runs a program that does not end. -/
def perform (e : Engine) : Operation → Option (Outcome × Engine)
  | .handle host incoming context =>
    (e.handle host incoming context).map fun a => (.reply a.reply, a.engine)
  | .addTransaction t => some (e.settle (.ok (e.registry.addTransaction t)))
  | .register event name => some (e.settle (e.registry.register event name))
  | .unregisterEvent event => some (e.settle (e.registry.unregisterEvent event))
  | .unregisterTransaction name => some (e.settle (e.registry.unregisterTransaction name))

/-- Performs these operations. Those that do not fail are the history of the engine that is left. -/
def performAll : Engine → List Operation → Option (List Operation × Engine)
  | e, [] => some ([], e)
  | e, operation :: operations =>
    (e.perform operation).bind fun (outcome, e) =>
      (performAll e operations).map fun (history, e) =>
        (if outcome.failed then history else operation :: history, e)

/-- The number of the connection that an object is. -/
def connectionOf : Option Object → Option UInt64
  | some (.connection _ id) => some id
  | _ => none

namespace Operation

/-- The transaction that was stored under a name. A message stores it with its connection. -/
def stored (name : String) : Operation → Option Transaction
  | handle _ (.message (.transaction t)) context =>
    if t.flags.register && name = t.name then
      some { t with connectionId := connectionOf context }
    else none
  | addTransaction t => if name = t.name then some t else none
  | _ => none

def forgets (name : String) : Operation → Bool
  | unregisterTransaction n => name = n
  | _ => false

/-- The name that was bound to an event. -/
def bound (event : String) : Operation → Option String
  | handle _ (.message (.transaction t)) _ =>
    if t.flags.register && t.event = some event then some t.name else none
  | register e name => if event = e then some name else none
  | _ => none

def unbinds (event : String) : Operation → Bool
  | unregisterEvent e => event = e
  | _ => false

end Operation

/-- What was told since the last operation that ended all that was told before. -/
def since {α : Type} (ends : Operation → Bool) (told : Operation → Option α)
    (history : List Operation) : List α :=
  (history.rtakeWhile fun x => !ends x).filterMap told

/-- The transaction most recently stored under a name since the name was last unregistered. -/
def lastStored (history : List Operation) (name : String) : Option Transaction :=
  (since (Operation.forgets name) (Operation.stored name) history).getLast?

/-- The names bound to an event since it was last unregistered, each where it first was. -/
def boundSince (history : List Operation) (event : String) : List String :=
  (since (Operation.unbinds event) (Operation.bound event) history).eraseDups

/-- The call fails exactly if `p` holds, and only because something was not found. -/
def NotFoundIff (call : Except Error Registry) (p : Prop) : Prop :=
  ((∃ error, call = .error error) ↔ p) ∧ ∀ error, call = .error error → error.kind = .notFound

/-- What stands in a registry is what its history tells, and so is what fails. -/
structure Refines (history : List Operation) (r : Registry) : Prop where
  transaction : ∀ name, r.transaction? name = lastStored history name
  named : ∀ name t, r.transaction? name = some t → t.name = name
  bound : ∀ event, r.bound event = boundSince history event
  nodup : ∀ event, (r.bound event).Nodup
  register : ∀ event name, NotFoundIff (r.register event name) (r.transaction? name = none)
  unregisterEvent : ∀ event, NotFoundIff (r.unregisterEvent event) (r.bound event = [])
  unregisterTransaction : ∀ name,
    NotFoundIff (r.unregisterTransaction name) (r.transaction? name = none)

lemma since_concat {α : Type} (ends : Operation → Bool) (told : Operation → Option α)
    (history : List Operation) (x : Operation) :
    since ends told (history ++ [x]) =
      if ends x then [] else since ends told history ++ (told x).toList := by
  unfold since
  by_cases h : ends x
  · rw [if_pos h, List.rtakeWhile_concat_neg _ _ _ (by simp [h])]
    rfl
  · rw [if_neg h, List.rtakeWhile_concat_pos _ _ _ (by simp [h]), List.filterMap_append]
    cases ht : told x <;> simp [ht]

lemma lastStored_concat (history : List Operation) (x : Operation) (name : String) :
    lastStored (history ++ [x]) name =
      if x.forgets name then none else (x.stored name).or (lastStored history name) := by
  unfold lastStored
  rw [since_concat]
  by_cases h : x.forgets name
  · rw [if_pos h, if_pos h]
    rfl
  · rw [if_neg h, if_neg h, List.getLast?_append]
    cases x.stored name <;> rfl

lemma eraseDups_concat (names : List String) (name : String) :
    (names ++ [name]).eraseDups = enlist names.eraseDups name := by
  unfold enlist
  rw [List.eraseDups_append]
  by_cases h : name ∈ names
  · rw [if_pos (List.mem_eraseDups.2 h)]
    simp [List.removeAll, h]
  · rw [if_neg fun hn => h (List.mem_eraseDups.1 hn)]
    simp [List.removeAll, List.eraseDups_cons, h]

lemma boundSince_concat (history : List Operation) (x : Operation) (event : String) :
    boundSince (history ++ [x]) event =
      if x.unbinds event then []
      else (x.bound event).elim (boundSince history event) (enlist (boundSince history event)) := by
  unfold boundSince
  rw [since_concat]
  by_cases h : x.unbinds event
  · rw [if_pos h, if_pos h]
    rfl
  · rw [if_neg h, if_neg h]
    cases x.bound event with
    | none => exact congrArg _ (List.append_nil _)
    | some name => exact eraseDups_concat _ name

variable {e u : Engine} {capacity : Nat} {host : Host} {context : Option Object} {a : Answered}

/-- The registry `u` comes of `r` by what the operation tells. -/
structure Advances (operation : Operation) (r u : Registry) : Prop where
  transaction : ∀ name, u.transaction? name =
    if operation.forgets name then none
    else (operation.stored name).or (r.transaction? name)
  bound : ∀ event, u.bound event =
    if operation.unbinds event then []
    else (operation.bound event).elim (r.bound event) (enlist (r.bound event))

lemma connectionOf_eq (context : Option Object) :
    context.bind Object.connectionId? = connectionOf context := by
  obtain _ | ⟨_ | _ | _⟩ := context <;> rfl

lemma handle_transaction {t : Transaction} (hs : e.registry.stack = .ofCapacity capacity)
    (h : e.handle host (.message (.transaction t)) context = some a) :
    (a.reply.isError = true ∧ a.engine = e) ∨
      (a.reply.isError = false ∧
        Advances (.handle host (.message (.transaction t)) context) e.registry
          a.engine.registry) := by
  obtain ⟨x, hx, rfl⟩ := Option.map_eq_some_iff.1 h
  rw [stamp, connectionOf_eq] at hx
  obtain ⟨herror, hr⟩ | ⟨herror, exit, hr⟩ := Registry.process_transaction_cases hs hx
  · exact .inl ⟨herror, by rw [hr]⟩
  · refine .inr ⟨herror, ?_⟩
    dsimp only at hr ⊢
    rw [hr]
    by_cases hg : t.flags.register
    · rw [if_pos hg]
      constructor
      · intro name
        change (e.registry.kept _).transaction? name = _
        rw [Registry.transaction?_kept]
        by_cases hn : name = t.name <;> simp [Operation.forgets, Operation.stored, hg, hn]
      · intro event
        change (e.registry.kept _).bound event = _
        rw [Registry.bound_kept]
        by_cases he : t.event = some event <;> simp [Operation.unbinds, Operation.bound, hg, he]
    · rw [if_neg hg]
      constructor
      · intro name
        change e.registry.transaction? name = _
        simp [Operation.forgets, Operation.stored, hg]
      · intro event
        change e.registry.bound event = _
        simp [Operation.unbinds, Operation.bound, hg]

lemma handle_advances {incoming : Incoming} (hs : e.registry.stack = .ofCapacity capacity)
    (h : e.handle host incoming context = some a) :
    (a.reply.isError = true ∧ a.engine = e) ∨
      (a.reply.isError = false ∧
        Advances (.handle host incoming context) e.registry a.engine.registry) := by
  match incoming with
  | .message (.transaction t) => exact handle_transaction hs h
  -- What an event or a key runs changes neither map.
  | .message (.event id name) =>
    obtain ⟨x, hx, rfl⟩ := Option.map_eq_some_iff.1 h
    obtain ⟨y, hy, rfl⟩ := Option.map_eq_some_iff.1 hx
    refine .inr ⟨rfl, ?_⟩
    dsimp only
    rw [Registry.fireAll_registry hs hy]
    exact ⟨fun _ => rfl, fun _ => rfl⟩
  | .key id event =>
    obtain ⟨x, hx, rfl⟩ := Option.map_eq_some_iff.1 h
    refine .inr ⟨rfl, ?_⟩
    dsimp only
    rw [fireAll_registry hs hx]
    exact ⟨fun _ => rfl, fun _ => rfl⟩

lemma register_advances {r v : Registry} {event name : String}
    (h : r.register event name = .ok v) : Advances (.register event name) r v := by
  rw [Registry.eq_of_register h]
  refine ⟨fun _ => rfl, ?_⟩
  intro e
  rw [Registry.bound_set]
  by_cases he : e = event <;> simp [Operation.unbinds, Operation.bound, he]

lemma unregisterEvent_advances {r v : Registry} {event : String}
    (h : r.unregisterEvent event = .ok v) : Advances (.unregisterEvent event) r v := by
  rw [Registry.eq_of_unregisterEvent h]
  refine ⟨fun _ => rfl, ?_⟩
  intro e
  rw [Registry.bound_erase]
  by_cases he : e = event <;> simp [Operation.unbinds, Operation.bound, he]

lemma unregisterTransaction_advances {r v : Registry} {name : String}
    (h : r.unregisterTransaction name = .ok v) : Advances (.unregisterTransaction name) r v := by
  rw [Registry.eq_of_unregisterTransaction h]
  refine ⟨?_, fun _ => rfl⟩
  intro n
  change Dictionary.get? _ n = _
  rw [Dictionary.get?_erase]
  by_cases he : n = name
  · rw [if_pos he]
    simp [Operation.forgets, he]
  · rw [if_neg he]
    simp [Operation.forgets, Operation.stored, he, Registry.transaction?]

lemma addTransaction_advances (r : Registry) (t : Transaction) :
    Advances (.addTransaction t) r (r.addTransaction t) := by
  refine ⟨?_, fun _ => rfl⟩
  intro name
  rw [Registry.transaction?_addTransaction]
  by_cases hn : name = t.name <;> simp [Operation.forgets, Operation.stored, hn]

lemma settle_advances {operation : Operation} {call : Except Error Registry} {outcome : Outcome}
    (hok : ∀ r, call = .ok r → Advances operation e.registry r)
    (h : e.settle call = (outcome, u)) :
    (outcome.failed = true ∧ u = e) ∨
      (outcome.failed = false ∧ Advances operation e.registry u.registry) := by
  cases call with
  | error error =>
    cases h
    exact .inl ⟨rfl, rfl⟩
  | ok r =>
    cases h
    exact .inr ⟨rfl, hok r rfl⟩

/-- An operation that fails changes nothing, and any other does to the maps what it tells. -/
theorem perform_advances {operation : Operation} {outcome : Outcome}
    (hs : e.registry.stack = .ofCapacity capacity)
    (h : e.perform operation = some (outcome, u)) :
    (outcome.failed = true ∧ u = e) ∨
      (outcome.failed = false ∧ Advances operation e.registry u.registry) := by
  cases operation with
  | handle host incoming context =>
    obtain ⟨a, ha, heq⟩ := Option.map_eq_some_iff.1 h
    cases heq
    exact handle_advances hs ha
  | addTransaction t =>
    refine settle_advances ?_ (Option.some.inj h)
    rintro r ⟨⟩
    exact addTransaction_advances e.registry t
  | register event name =>
    exact settle_advances (fun _ hr => register_advances hr) (Option.some.inj h)
  | unregisterEvent event =>
    exact settle_advances (fun _ hr => unregisterEvent_advances hr) (Option.some.inj h)
  | unregisterTransaction name =>
    exact settle_advances (fun _ hr => unregisterTransaction_advances hr) (Option.some.inj h)

/-! ### What stays true -/

/-- The registry after a history, on a stack as it was made. -/
structure Remembers (capacity : Nat) (history : List Operation) (r : Registry) : Prop where
  stack : r.stack = .ofCapacity capacity
  tidy : r.Tidy
  transaction : ∀ name, r.transaction? name = lastStored history name
  bound : ∀ event, r.bound event = boundSince history event

lemma remembers_new (capacity : Nat) : Remembers capacity [] (.ofCapacity capacity) where
  stack := rfl
  tidy := .ofCapacity capacity
  transaction _ := rfl
  bound _ := rfl

lemma settle_registry (e : Engine) (call : Except Error Registry) :
    (e.settle call).2.registry = call.toOption.getD e.registry := by
  cases call <;> rfl

lemma perform_after {operation : Operation} {outcome : Outcome}
    (hs : e.registry.stack = .ofCapacity capacity)
    (h : e.perform operation = some (outcome, u)) :
    (∃ call, e.registry.after call = some u.registry) ∨
      u.registry = { e.registry with exitRequested := u.registry.exitRequested } := by
  have hsettled {call : Except Error Registry} (hc : some (e.settle call) = some (outcome, u)) :
      some (call.toOption.getD e.registry) = some u.registry := by
    rw [← settle_registry, Option.some.inj hc]
  cases operation with
  | handle host incoming context =>
    obtain ⟨a, ha, heq⟩ := Option.map_eq_some_iff.1 h
    cases heq
    match incoming with
    | .message m =>
      obtain ⟨x, hx, rfl⟩ := Option.map_eq_some_iff.1 ha
      exact .inl ⟨.process host (stamp context m) context, by rw [Registry.after, hx]; rfl⟩
    | .key id event =>
      -- A key may fire several events, which is no call of its own.
      obtain ⟨x, hx, rfl⟩ := Option.map_eq_some_iff.1 ha
      exact .inr (fireAll_registry hs hx)
  | addTransaction t => exact .inl ⟨.addTransaction t, hsettled h⟩
  | register event name => exact .inl ⟨.register event name, hsettled h⟩
  | unregisterEvent event => exact .inl ⟨.unregisterEvent event, hsettled h⟩
  | unregisterTransaction name => exact .inl ⟨.unregisterTransaction name, hsettled h⟩

lemma Remembers.perform {history : List Operation} {operation : Operation} {outcome : Outcome}
    (hr : Remembers capacity history e.registry) (h : e.perform operation = some (outcome, u)) :
    Remembers capacity (if outcome.failed then history else history ++ [operation]) u.registry := by
  obtain ⟨hf, rfl⟩ | ⟨hf, htransaction, hbound⟩ := perform_advances hr.stack h
  · rwa [if_pos hf]
  · rw [hf, if_neg Bool.false_ne_true]
    refine ⟨?_, ?_, ?_, ?_⟩
    · obtain ⟨call, hcall⟩ | hu := perform_after hr.stack h
      · exact Registry.after_stack hr.stack hcall
      · rw [hu]
        exact hr.stack
    · obtain ⟨call, hcall⟩ | hu := perform_after hr.stack h
      · exact Registry.after_tidy hr.tidy hr.stack hcall
      · exact hr.tidy.congr (by rw [hu]) (by rw [hu])
    · intro name
      rw [lastStored_concat, htransaction, hr.transaction]
    · intro event
      rw [boundSince_concat, hbound, hr.bound]

theorem Remembers.performAll {before history : List Operation} {operations : List Operation}
    (hr : Remembers capacity before e.registry)
    (h : e.performAll operations = some (history, u)) :
    Remembers capacity (before ++ history) u.registry := by
  -- `before` grows with each operation that does not fail.
  induction operations generalizing e before history with
  | nil =>
    cases h
    rwa [List.append_nil]
  | cons operation operations ih =>
    obtain ⟨⟨outcome, v⟩, hv, h⟩ := Option.bind_eq_some_iff.1 h
    obtain ⟨⟨rest, w⟩, hw, heq⟩ := Option.map_eq_some_iff.1 h
    cases heq
    have hrest := ih (hr.perform hv) hw
    by_cases hf : outcome.failed
    · rwa [if_pos hf] at hrest ⊢
    · rw [if_neg hf, List.append_assoc] at hrest
      rw [if_neg hf]
      exact hrest

lemma notFoundIff_of {call : Except Error Registry} {p : Prop} {error : Error} {r : Registry}
    (hfails : p → call = .error error) (hworks : ¬p → call = .ok r)
    (hkind : error.kind = .notFound) : NotFoundIff call p := by
  by_cases hp : p
  · rw [hfails hp]
    refine ⟨⟨fun _ => hp, fun _ => ⟨error, rfl⟩⟩, ?_⟩
    intro e he
    rwa [← Except.error.inj he]
  · rw [hworks hp]
    refine ⟨⟨?_, fun h => absurd h hp⟩, ?_⟩
    · rintro ⟨e, he⟩
      cases he
    · intro e he
      cases he

lemma Remembers.refines {history : List Operation} {r : Registry}
    (h : Remembers capacity history r) : Refines history r where
  transaction := h.transaction
  named _ _ ht := h.tidy.named ht
  bound := h.bound
  nodup := h.tidy.bound_nodup
  register event _ :=
    notFoundIff_of (fun hn => Registry.register_unknown hn event) Registry.register_known rfl
  unregisterEvent event := by
    rw [h.tidy.bound_eq_nil_iff]
    exact notFoundIff_of Registry.unregisterEvent_unbound Registry.unregisterEvent_bound rfl
  unregisterTransaction _ :=
    notFoundIff_of Registry.unregisterTransaction_unknown Registry.unregisterTransaction_known rfl

/-- What stands in the registry of an engine is told by the operations that did not fail; those
that fail say so and change nothing. -/
theorem registry_refines_history {matcher : Matcher} {operations history : List Operation}
    (h : performAll ⟨.ofCapacity capacity, matcher⟩ operations = some (history, e)) :
    Refines history e.registry ∧
      ∀ operation outcome u, e.perform operation = some (outcome, u) →
        outcome.failed = true → u = e := by
  have hr := (remembers_new capacity).performAll (e := ⟨.ofCapacity capacity, matcher⟩) h
  refine ⟨hr.refines, ?_⟩
  intro operation outcome u hu hf
  obtain ⟨-, rfl⟩ | ⟨hno, -⟩ := perform_advances hr.stack hu
  · rfl
  · rw [hno] at hf
    cases hf

/-- A transaction comes through a connection and is unregistered, cannot be bound, and is stored
anew after another one was bound behind it. -/
theorem registry_refines_history_rebound :
    let t : Transaction := ⟨1, "t", ⟨false, true⟩, none, some "e", []⟩
    let other : Transaction := { t with name := "s" }
    let message : Operation :=
      .handle .silent (.message (.transaction t)) (some (.connection 7 3))
    let operations : List Operation :=
      [message, .unregisterTransaction "t", .register "e" "t", .addTransaction other,
        .register "e" "s", .addTransaction t]
    let history : List Operation :=
      [message, .unregisterTransaction "t", .addTransaction other, .register "e" "s",
        .addTransaction t]
    let e : Engine :=
      ⟨⟨.ofCapacity 0, [("s", other), ("t", t)], [("e", ["t", "s"])], false⟩, .empty⟩
    performAll ⟨.ofCapacity 0, .empty⟩ operations = some (history, e) ∧
      Refines history e.registry ∧
      ∀ operation outcome u, e.perform operation = some (outcome, u) →
        outcome.failed = true → u = e := by
  intro t other message operations history e
  have h : performAll ⟨.ofCapacity 0, .empty⟩ operations = some (history, e) := rfl
  exact ⟨h, registry_refines_history h⟩

end TransactionEngine.Engine
