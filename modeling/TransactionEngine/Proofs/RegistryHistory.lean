import TransactionEngine.Proofs.NestedFrames
import TransactionEngine.Registry

/-!
# What a registry has been through

A registry answers calls one after the other, on one stack. After every history the stack is as
it was made, in slots, frame and room, so what a transaction does is independent of what was done
before it.
-/

namespace TransactionEngine.Registry

/-- What a registry can be asked for. A message comes with the object it runs for, and with the
host that answers meanwhile. -/
inductive Call where
  | process (host : Host) (m : Message) (context : Option Object)
  | addTransaction (t : Transaction)
  | register (event name : String)
  | unregisterEvent (event : String)
  | unregisterTransaction (name : String)

/-- The registry after a call, which is the same if the call fails; there is none if a program
does not end. -/
def after (r : Registry) : Call → Option Registry
  | .process host m context => (r.process host m context).map Handled.registry
  | .addTransaction t => some (r.addTransaction t)
  | .register event name => some ((r.register event name).toOption.getD r)
  | .unregisterEvent event => some ((r.unregisterEvent event).toOption.getD r)
  | .unregisterTransaction name => some ((r.unregisterTransaction name).toOption.getD r)

/-- The registry after all of these calls. -/
def afterAll : Registry → List Call → Option Registry
  | r, [] => some r
  | r, call :: calls => do
    let r ← r.after call
    afterAll r calls

variable {host : Host} {context : Option Object} {capacity : Nat} {r u : Registry}

lemma close_of_run {program : List Statement} {run : Run}
    (h : Processor.run host program (.start (.ofCapacity capacity) context) = some run) :
    run.processor.close = .ofCapacity capacity := by
  have hs : (Stack.ofCapacity capacity).Framed := Nat.le_refl 0
  have hf := Stack.framed_startFrame (.ofCapacity capacity)
  let p : Processor := { Processor.start (.ofCapacity capacity) context with phase := .running }
  obtain ⟨n, hn⟩ := (Processor.runOn_eq_some_iff (p := p) hf).1 h
  obtain ⟨hk, hsaved⟩ := Processor.halts_keeps hf hn
  have hleast : run.processor.stack.minCapacity = (Stack.ofCapacity capacity).minCapacity :=
    hk.least
  obtain ⟨hl, k, hroom⟩ := hk.sized (Stack.sized_ofCapacity capacity)
  rw [hleast] at hl hroom
  have hfit := Stack.halved_nothing hl k
  change Stack.halved _ (Stack.ofCapacity capacity).top _ = _ at hfit
  rw [Processor.close_of_keeps hs hsaved hk, hroom, hfit]
  rfl

lemma execute_registry {program : List Statement} {x : Handled (Except Error (Option Value))}
    (hr : r.stack = .ofCapacity capacity) (h : r.execute host program context = some x) :
    x.registry = { r with exitRequested := x.registry.exitRequested } := by
  obtain ⟨run, hrun, rfl⟩ := Option.map_eq_some_iff.1 h
  rw [hr] at hrun
  have hc : run.processor.close = r.stack := (close_of_run hrun).trans hr.symm
  dsimp only
  cases run.outcome with
  | ok halt =>
    dsimp only
    rw [hc]
  | error failure =>
    dsimp only
    rw [hc]

lemma fireAll_cons {name : String} {names : List String} {t : Transaction}
    (ht : r.transaction? name = some t) :
    fireAll host context r (name :: names) =
      (r.execute host t.statements context).bind fun x =>
        (fireAll host context x.registry names).map fun y =>
          { y with effects := x.effects ++ y.effects } := by
  rw [fireAll, ht]
  dsimp only
  cases r.execute host t.statements context with
  | none => rfl
  | some x =>
    change (fireAll host context x.registry names).bind _ =
      (fireAll host context x.registry names).map _
    cases fireAll host context x.registry names <;> rfl

lemma fireAll_registry {names : List String} {x : Handled Unit}
    (hr : r.stack = .ofCapacity capacity) (h : fireAll host context r names = some x) :
    x.registry = { r with exitRequested := x.registry.exitRequested } := by
  induction names generalizing r x with
  | nil =>
    cases h
    rfl
  | cons name names ih =>
    cases ht : r.transaction? name with
    | none =>
      rw [fireAll, ht] at h
      exact ih hr h
    | some t =>
      rw [fireAll_cons ht] at h
      obtain ⟨y, hy, h⟩ := Option.bind_eq_some_iff.1 h
      obtain ⟨z, hz, rfl⟩ := Option.map_eq_some_iff.1 h
      have he := execute_registry hr hy
      have hstack : y.registry.stack = .ofCapacity capacity := by rw [he, hr]
      dsimp only
      rw [ih hstack hz, he]

lemma register_stack {event name : String} (h : r.register event name = .ok u) :
    u.stack = r.stack := by
  unfold register at h
  by_cases hn : (r.transaction? name).isNone
  · rw [if_pos hn] at h
    cases h
  · rw [if_neg hn] at h
    cases h
    rfl

lemma keepAfter_stack (x : Handled (Option Value)) (t : Transaction) :
    (keepAfter x t).registry.stack = x.registry.stack := by
  unfold keepAfter keep
  cases t.event with
  | none => rfl
  | some event =>
    dsimp only
    cases hk : (x.registry.addTransaction t).register event t.name with
    | error e => rfl
    | ok u =>
      have hs := register_stack hk
      exact hs

lemma process_stack {m : Message} {x : Handled Reply} (hr : r.stack = .ofCapacity capacity)
    (h : r.process host m context = some x) : x.registry.stack = .ofCapacity capacity := by
  cases m with
  | event id name =>
    obtain ⟨y, hy, rfl⟩ := Option.map_eq_some_iff.1 h
    have he := fireAll_registry hr hy
    dsimp only
    rw [he, hr]
  | transaction t =>
    obtain ⟨y, hy, rfl⟩ := Option.map_eq_some_iff.1 h
    have hs : y.registry.stack = .ofCapacity capacity := by
      unfold processTransaction at hy
      by_cases he : t.flags.isEmpty
      · rw [if_pos he] at hy
        cases hy
        exact hr
      · rw [if_neg he] at hy
        by_cases hx : t.flags.exec
        · rw [if_pos hx] at hy
          obtain ⟨z, hz, rfl⟩ := Option.map_eq_some_iff.1 hy
          have hzs : z.registry.stack = .ofCapacity capacity := by rw [execute_registry hr hz, hr]
          cases z.answer with
          | error e => exact hzs
          | ok value =>
            dsimp only
            by_cases hg : t.flags.register
            · rw [if_pos hg, keepAfter_stack, hzs]
            · rw [if_neg hg, hzs]
        · rw [if_neg hx] at hy
          cases hy
          rw [keepAfter_stack, hr]
    cases y.answer <;> exact hs

lemma after_stack {call : Call} (hr : r.stack = .ofCapacity capacity)
    (h : r.after call = some u) : u.stack = .ofCapacity capacity := by
  cases call with
  | process host m context =>
    obtain ⟨x, hx, rfl⟩ := Option.map_eq_some_iff.1 h
    exact process_stack hr hx
  | addTransaction t =>
    cases h
    exact hr
  | register event name =>
    cases h
    cases hg : r.register event name with
    | error e => exact hr
    | ok v => exact (register_stack hg).trans hr
  | unregisterEvent event =>
    cases h
    unfold unregisterEvent
    split <;> exact hr
  | unregisterTransaction name =>
    cases h
    unfold unregisterTransaction
    split <;> exact hr

lemma afterAll_stack {calls : List Call} (hr : r.stack = .ofCapacity capacity)
    (h : r.afterAll calls = some u) : u.stack = .ofCapacity capacity := by
  induction calls generalizing r with
  | nil =>
    cases h
    exact hr
  | cons call calls ih =>
    obtain ⟨v, hv, h⟩ := Option.bind_eq_some_iff.1 h
    exact ih (after_stack hr hv) h

/-! ### Transactions that only run -/

lemma execute_congr (hs : r.stack = u.stack) (program : List Statement) :
    (r.execute host program context).map (fun x => (x.answer, x.effects)) =
      (u.execute host program context).map (fun x => (x.answer, x.effects)) := by
  unfold execute
  rw [hs, Option.map_map, Option.map_map]
  congr 1
  funext run
  dsimp only [Function.comp]
  cases run.outcome <;> rfl

/-- The reply to a transaction. -/
def replyTo (id : UInt64) : Except Error (Option Value) → Reply
  | .ok value => .value id value
  | .error e => .error (some id) e

lemma process_exec {t : Transaction} (ht : t.flags = ⟨true, false⟩) :
    r.process host (.transaction t) context =
      (r.execute host t.statements context).map fun x =>
        { x with answer := replyTo t.id x.answer } := by
  unfold process processTransaction
  dsimp only
  rw [ht]
  dsimp only [Flags.isEmpty]
  simp only [Bool.not_true, Bool.false_and, Bool.false_eq_true, if_false, if_true, Option.map_map]
  congr 1
  funext x
  dsimp only [Function.comp]
  cases x.answer <;> rfl

lemma process_congr (hs : r.stack = u.stack) {t : Transaction} (ht : t.flags = ⟨true, false⟩) :
    (r.process host (.transaction t) context).map (fun x => (x.answer, x.effects)) =
      (u.process host (.transaction t) context).map (fun x => (x.answer, x.effects)) := by
  have hp (v : Registry) :
      (v.process host (.transaction t) context).map (fun x => (x.answer, x.effects)) =
        ((v.execute host t.statements context).map fun x => (x.answer, x.effects)).map
          fun y => (replyTo t.id y.1, y.2) := by
    rw [process_exec ht, Option.map_map, Option.map_map]
    rfl
  rw [hp, hp, execute_congr hs]

/-- After every history the stack is as it was made; so a transaction that only runs gets the same
reply, and does the same, whatever came before it. -/
theorem transactions_isolated {calls calls' : List Call} {r r' : Registry}
    (h : (ofCapacity capacity).afterAll calls = some r)
    (h' : (ofCapacity capacity).afterAll calls' = some r') :
    r.stack = ⟨[], 0, max capacity 4, max capacity 4⟩ ∧
      ∀ host t context, t.flags = ⟨true, false⟩ →
        (r.process host (.transaction t) context).map (fun x => (x.answer, x.effects)) =
          (r'.process host (.transaction t) context).map (fun x => (x.answer, x.effects)) := by
  have hs := afterAll_stack rfl h
  have hs' := afterAll_stack rfl h'
  refine ⟨hs, ?_⟩
  intro host t context ht
  exact process_congr (hs.trans hs'.symm) ht

/-- A registry that has fired a transaction which failed half way, and a new one. -/
theorem transactions_isolated_after_failure :
    let t : Transaction :=
      ⟨1, "t", ⟨false, true⟩, none, some "e", [⟨.special .push, []⟩, ⟨.regular .not, []⟩]⟩
    let calls : List Call := [.process .silent (.transaction t) none,
      .process .silent (.event 2 "e") none, .unregisterEvent "x"]
    ∃ r, (ofCapacity 0).afterAll calls = some r ∧ (ofCapacity 0).afterAll [] = some (ofCapacity 0) ∧
      r.stack = ⟨[], 0, 4, 4⟩ ∧
      (r.process .silent (.transaction { t with flags := ⟨true, false⟩ }) none).map
          (fun x => (x.answer, x.effects)) =
        ((ofCapacity 0).process .silent (.transaction { t with flags := ⟨true, false⟩ }) none).map
          (fun x => (x.answer, x.effects)) := by
  intro t calls
  let r : Registry := ⟨.ofCapacity 0, [("t", t)], [("e", ["t"])], false⟩
  let p : Processor := { Processor.start (.ofCapacity 0) none with phase := .running }
  obtain ⟨run, hrun⟩ : ∃ run, p.runOn .silent t.statements = some run :=
    ⟨_, (Processor.runOn_eq_some_iff (p := p) (Nat.le_refl 0)).2 ⟨2, .on rfl (.ended rfl)⟩⟩
  obtain ⟨x, hx⟩ : ∃ x, r.execute .silent t.statements none = some x := by
    unfold execute Processor.run
    change ∃ x, Option.map _ (p.runOn .silent t.statements) = some x
    rw [hrun]
    exact ⟨_, rfl⟩
  obtain ⟨y, hy⟩ : ∃ y, r.process .silent (.event 2 "e") none = some y := by
    change ∃ y, Option.map _ ((r.execute .silent t.statements none).bind _) = some y
    rw [hx]
    exact ⟨_, rfl⟩
  obtain ⟨u, hu⟩ : ∃ u, (ofCapacity 0).afterAll calls = some u := by
    change ∃ u, ((r.process .silent (.event 2 "e") none).map Handled.registry).bind _ = some u
    rw [hy]
    exact ⟨_, rfl⟩
  have hnew : (ofCapacity 0).afterAll [] = some (ofCapacity 0) := rfl
  obtain ⟨hs, hp⟩ := transactions_isolated hu hnew
  exact ⟨u, hu, hnew, hs, hp .silent _ none rfl⟩

end TransactionEngine.Registry
