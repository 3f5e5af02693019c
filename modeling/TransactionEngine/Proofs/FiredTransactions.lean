import Mathlib.Data.List.Forall2
import TransactionEngine.Proofs.RegistryMaps

/-!
# Events, transaction by transaction

An event starts the registered transactions that are bound to it, in the order of the bindings.
What this makes of the registry and of the outside is what messages make of them that run these
transactions one after the other: each is run once, in the registry's own state, whatever has
become of those before it.
-/

namespace TransactionEngine

/-- The run asked for the engine's end, and did not fail. -/
def Run.asksForEnd (run : Run) : Bool :=
  run.outcome.isOk && run.processor.exitRequested

namespace Registry

/-- The transactions that an event starts, one after the other. -/
def transactionsOf (r : Registry) (event : String) : List Transaction :=
  (r.bound event).filterMap r.transaction?

/-- Processes messages one after the other. -/
def processAll (host : Host) (context : Option Object) :
    Registry → List Message → Option (Handled (List Reply))
  | r, [] => some ⟨r, [], []⟩
  | r, m :: messages => do
    let h ← r.process host m context
    let rest ← processAll host context h.registry messages
    pure ⟨rest.registry, h.answer :: rest.answer, h.effects ++ rest.effects⟩

/-- All that the second transaction asks for is a run of the first one's program. -/
structure OnlyRuns (t u : Transaction) : Prop where
  flags : u.flags = ⟨true, false⟩
  statements : u.statements = t.statements

variable {host : Host} {context : Option Object} {capacity : Nat} {r : Registry}

lemma processAll_cons (m : Message) (messages : List Message) :
    processAll host context r (m :: messages) =
      (r.process host m context).bind fun x =>
        (processAll host context x.registry messages).map fun y =>
          ⟨y.registry, x.answer :: y.answer, x.effects ++ y.effects⟩ := by
  rw [processAll]
  cases r.process host m context with
  | none => rfl
  | some x =>
    change (processAll host context x.registry messages).bind _ =
      (processAll host context x.registry messages).map _
    cases processAll host context x.registry messages <;> rfl

/-- What a program leaves behind is settled by its run alone. -/
lemma execute_of_run (hr : r.stack = .ofCapacity capacity) {program : List Statement} {run : Run}
    (h : Processor.run host program (.start r.stack context) = some run) :
    ∃ answer, r.execute host program context =
      some ⟨{ r with exitRequested := r.exitRequested || run.asksForEnd }, answer, run.effects⟩ := by
  rw [execute_eq hr, h, Option.map_some]
  unfold Run.asksForEnd
  cases run.outcome with
  | ok halt => exact ⟨_, rfl⟩
  | error failure =>
    refine ⟨.error failure.error, ?_⟩
    simp only [Except.isOk, Except.toBool, Bool.false_and, Bool.or_false]

lemma fireAll_eq_processAll (hr : r.stack = .ofCapacity capacity) {names : List String}
    {ts : List Transaction} (hts : List.Forall₂ OnlyRuns (names.filterMap r.transaction?) ts) :
    ((fireAll host context r names).map fun x => (x.registry, x.effects)) =
      (processAll host context r (ts.map .transaction)).map fun x => (x.registry, x.effects) := by
  induction names generalizing r ts with
  | nil =>
    cases hts
    rfl
  | cons name names ih =>
    cases ht : r.transaction? name with
    | none =>
      rw [List.filterMap_cons_none ht] at hts
      rw [fireAll, ht]
      exact ih hr hts
    | some t =>
      rw [List.filterMap_cons_some ht] at hts
      obtain ⟨u, us, hu, hus, rfl⟩ := List.forall₂_cons_left_iff.1 hts
      rw [fireAll_cons ht, List.map_cons, processAll_cons, process_exec hu.flags, hu.statements]
      cases hx : r.execute host t.statements context with
      | none => rfl
      | some x =>
        -- The run leaves the transactions alone, so the names that are left stand for the same.
        have he := execute_registry hr hx
        have hrest := ih (r := { r with exitRequested := x.registry.exitRequested }) hr hus
        rw [← he] at hrest
        have hmore := congrArg (Option.map fun y => (y.1, x.effects ++ y.2)) hrest
        simp only [Option.map_map] at hmore
        simp only [Option.bind_some, Option.map_some, Option.map_map]
        exact hmore

/-- Each transaction is run once, and nothing but the wish to end tells the runs from none. -/
lemma fireAll_of_runs (hr : r.stack = .ofCapacity capacity) {names : List String}
    {runs : List Run}
    (h : List.Forall₂
      (fun t run => Processor.run host t.statements (.start r.stack context) = some run)
      (names.filterMap r.transaction?) runs) :
    fireAll host context r names =
      some ⟨{ r with exitRequested := r.exitRequested || runs.any Run.asksForEnd }, (),
        runs.flatMap Run.effects⟩ := by
  induction names generalizing r runs with
  | nil =>
    cases h
    simp only [fireAll, List.any_nil, Bool.or_false, List.flatMap_nil]
  | cons name names ih =>
    cases ht : r.transaction? name with
    | none =>
      rw [List.filterMap_cons_none ht] at h
      rw [fireAll, ht]
      exact ih hr h
    | some t =>
      rw [List.filterMap_cons_some ht] at h
      obtain ⟨run, rest, hrun, hrest, rfl⟩ := List.forall₂_cons_left_iff.1 h
      obtain ⟨answer, hx⟩ := execute_of_run hr hrun
      have hfire := ih (r := { r with exitRequested := r.exitRequested || run.asksForEnd }) hr hrest
      rw [fireAll_cons ht, hx, Option.bind_some, hfire]
      simp only [Option.map_some, List.any_cons, List.flatMap_cons, Bool.or_assoc]

/-- An event does what messages do that run its transactions one after the other, whatever these
reply, and it ends exactly if they do. Where the runs halt, the event is answered under its number
with no value; each transaction is run once, and a run that fails keeps none of the others from
its effects or its wish to end. -/
theorem fired_one_by_one {calls : List Call} (h : (ofCapacity capacity).afterAll calls = some r)
    (host : Host) (id : UInt64) (event : String) (context : Option Object) {ts : List Transaction}
    (hts : List.Forall₂ OnlyRuns (r.transactionsOf event) ts) :
    ((r.process host (.event id event) context).map fun x => (x.registry, x.effects)) =
        ((r.processAll host context (ts.map .transaction)).map fun x => (x.registry, x.effects)) ∧
      ∀ runs, List.Forall₂
          (fun t run => Processor.run host t.statements (.start r.stack context) = some run)
          (r.transactionsOf event) runs →
        let u : Registry := { r with exitRequested := r.exitRequested || runs.any Run.asksForEnd }
        let effects := runs.flatMap Run.effects
        r.process host (.event id event) context = some ⟨u, .value id none, effects⟩ ∧
          ∃ replies, r.processAll host context (ts.map .transaction) =
            some ⟨u, replies, effects⟩ := by
  have hr := afterAll_stack rfl h
  have hsame : ((r.process host (.event id event) context).map fun x => (x.registry, x.effects)) =
      (r.processAll host context (ts.map .transaction)).map fun x => (x.registry, x.effects) := by
    rw [← fireAll_eq_processAll hr hts]
    change Option.map _ (Option.map _ (fire host r event context)) = Option.map _ _
    rw [Option.map_map]
    rfl
  refine ⟨hsame, ?_⟩
  intro runs hruns u effects
  have hprocess : r.process host (.event id event) context =
      some ⟨u, .value id none, effects⟩ := by
    change Option.map _ (fireAll host context r (r.bound event)) = _
    rw [fireAll_of_runs hr hruns]
    rfl
  refine ⟨hprocess, ?_⟩
  rw [hprocess, Option.map_some] at hsame
  obtain ⟨⟨v, replies, others⟩, hy, heq⟩ := Option.map_eq_some_iff.1 hsame.symm
  cases heq
  exact ⟨replies, hy⟩

/-- Of the three transactions that are bound to an event one fails after it has run an object, one
is not registered any more, and one asks for the end. -/
theorem fired_one_by_one_past_failure :
    let host : Host := { Host.silent with run := fun _ _ => some ⟨[], .ok 0⟩ }
    let context : Option Object := some (.plugin 7 "probe")
    let t (name : String) (program : List Statement) : Transaction :=
      ⟨1, name, ⟨false, true⟩, none, none, program⟩
    let failing := t "a" [⟨.special .context, []⟩, ⟨.regular .call, []⟩, ⟨.regular .not, []⟩]
    let exiting := t "c" [⟨.special .exit, []⟩]
    let calls : List Call := [.addTransaction failing, .addTransaction (t "b" []),
      .addTransaction exiting, .register "e" "a", .register "e" "b", .register "e" "c",
      .unregisterTransaction "b"]
    let ts : List Transaction :=
      [⟨2, "", ⟨true, false⟩, none, none, failing.statements⟩,
        ⟨3, "c", ⟨true, false⟩, none, some "e", exiting.statements⟩]
    ∃ r runs, (ofCapacity 0).afterAll calls = some r ∧
      List.Forall₂ OnlyRuns (r.transactionsOf "e") ts ∧
      List.Forall₂
        (fun t run => Processor.run host t.statements (.start r.stack context) = some run)
        (r.transactionsOf "e") runs ∧
      ((r.process host (.event 9 "e") context).map fun x => (x.registry, x.effects)) =
        ((r.processAll host context (ts.map .transaction)).map
          fun x => (x.registry, x.effects)) ∧
      r.process host (.event 9 "e") context =
        some ⟨{ r with exitRequested := true }, .value 9 none, [.ran 7]⟩ ∧
      ∃ replies, r.processAll host context (ts.map .transaction) =
        some ⟨{ r with exitRequested := true }, replies, [.ran 7]⟩ := by
  intro host context t failing exiting calls ts
  let r : Registry :=
    ⟨.ofCapacity 0, [("a", failing), ("c", exiting)], [("e", ["a", "b", "c"])], false⟩
  let p : Processor := { Processor.start r.stack context with phase := .running }
  have h : (ofCapacity 0).afterAll calls = some r := rfl
  have hts : List.Forall₂ OnlyRuns (r.transactionsOf "e") ts :=
    .cons ⟨rfl, rfl⟩ (.cons ⟨rfl, rfl⟩ .nil)
  obtain ⟨fails, hfails, he, ha⟩ : ∃ run,
      Processor.run host failing.statements (.start r.stack context) = some run ∧
        run.effects = [.ran 7] ∧ run.asksForEnd = false :=
    ⟨_, (Processor.runOn_eq_some_iff (p := p) (Nat.le_refl 0)).2
      ⟨3, .on rfl (.on rfl (.ended rfl))⟩, rfl, rfl⟩
  obtain ⟨exits, hexits, he', ha'⟩ : ∃ run,
      Processor.run host exiting.statements (.start r.stack context) = some run ∧
        run.effects = [] ∧ run.asksForEnd = true :=
    ⟨_, (Processor.runOn_eq_some_iff (p := p) (Nat.le_refl 0)).2
      ⟨2, .on rfl (.ended rfl)⟩, rfl, rfl⟩
  have hruns : List.Forall₂
      (fun t run => Processor.run host t.statements (.start r.stack context) = some run)
      (r.transactionsOf "e") [fails, exits] := .cons hfails (.cons hexits .nil)
  obtain ⟨hsame, hall⟩ := fired_one_by_one h host 9 "e" context hts
  have heach := hall [fails, exits] hruns
  simp only [List.any_cons, List.any_nil, List.flatMap_cons, List.flatMap_nil, he, ha, he', ha']
    at heach
  exact ⟨r, [fails, exits], h, hts, hruns, hsame, heach⟩

end Registry

end TransactionEngine
