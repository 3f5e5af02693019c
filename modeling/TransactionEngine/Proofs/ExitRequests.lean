import TransactionEngine.Proofs.EngineAnswers
import TransactionEngine.Proofs.RegistryMaps
import TransactionEngine.Proofs.StatementHosts

/-!
# Wishes to end

Only an `exit` statement that is completed raises the wish to end, and within a run the wish is
never withdrawn. A registry takes it over from the runs that end well, and from no others: a
statement that fails further on takes the wish with it.
-/

namespace TransactionEngine

namespace SpecialCommand

variable {p q : Processor} {length : Nat} {flow : Flow}

lemma onStack_exitRequested {stack : Except Error Stack} (h : onStack p stack = .ok (q, flow)) :
    q.exitRequested = p.exitRequested := by
  obtain ⟨t, -, h⟩ := ok_of_bind h
  cases h
  rfl

lemma jumpBy_exitRequested {delta : Int64} (h : jumpBy p length delta = .ok (q, flow)) :
    q.exitRequested = p.exitRequested := by
  obtain ⟨landing, -, h⟩ := ok_of_bind h
  cases landing <;> cases h <;> rfl

lemma applyPush_exitRequested {arguments : List Argument}
    (h : applyPush p arguments = .ok (q, flow)) : q.exitRequested = p.exitRequested := by
  cases arguments with
  | nil => exact onStack_exitRequested h
  | cons first values =>
    obtain ⟨n, -, h⟩ := ok_of_bind h
    by_cases hv : values.isEmpty
    · rw [if_pos hv] at h
      exact onStack_exitRequested h
    · rw [if_neg hv] at h
      by_cases hn : values.length ≠ n
      · rw [if_pos hn] at h
        cases h
      · rw [if_neg hn] at h
        obtain ⟨vs, -, h⟩ := ok_of_bind h
        exact onStack_exitRequested h

lemma applyPop_exitRequested {arguments : List Argument}
    (h : applyPop p arguments = .ok (q, flow)) : q.exitRequested = p.exitRequested := by
  match arguments with
  | [] => exact onStack_exitRequested h
  | [a] =>
    obtain ⟨n, -, h⟩ := ok_of_bind h
    exact onStack_exitRequested h
  | _ :: _ :: _ => cases h

lemma applyStore_exitRequested {arguments : List Argument}
    (h : applyStore p arguments = .ok (q, flow)) : q.exitRequested = p.exitRequested := by
  match arguments with
  | [source, .position target] =>
    obtain ⟨v, -, h⟩ := ok_of_bind h
    obtain ⟨index, -, h⟩ := ok_of_bind h
    cases h
    rfl
  | [_, .direct _] => cases h
  | [] => cases h
  | [_] => cases h
  | _ :: _ :: _ :: _ => simp [applyStore] at h

lemma applyJump_exitRequested {arguments : List Argument}
    (h : applyJump p length arguments = .ok (q, flow)) : q.exitRequested = p.exitRequested := by
  match arguments with
  | [a] =>
    obtain ⟨v, -, h⟩ := ok_of_bind h
    obtain ⟨delta, -, h⟩ := ok_of_bind h
    exact jumpBy_exitRequested h
  | [] => cases h
  | _ :: _ :: _ => cases h

lemma applyJumpIf_exitRequested {arguments : List Argument}
    (h : applyJumpIf p length arguments = .ok (q, flow)) : q.exitRequested = p.exitRequested := by
  match arguments with
  | [condition, a] =>
    obtain ⟨v, -, h⟩ := ok_of_bind h
    obtain ⟨delta, -, h⟩ := ok_of_bind h
    obtain ⟨w, -, h⟩ := ok_of_bind h
    obtain ⟨holds, -, h⟩ := ok_of_bind h
    cases holds with
    | true => exact jumpBy_exitRequested h
    | false =>
      cases h
      rfl
  | [] => cases h
  | [_] => cases h
  | _ :: _ :: _ :: _ => cases h

theorem apply_exitRequested {c : SpecialCommand} {arguments : List Argument}
    (h : c.apply p length arguments = .ok (q, flow)) :
    q.exitRequested = true ↔ p.exitRequested = true ∨ c = .exit := by
  cases c with
  | exit =>
    cases arguments with
    | nil =>
      cases h
      simp
    | cons => cases h
  | context =>
    cases arguments with
    | nil => simp [onStack_exitRequested h]
    | cons => cases h
  | jump => simp [applyJump_exitRequested h]
  | jumpIf => simp [applyJumpIf_exitRequested h]
  | pop => simp [applyPop_exitRequested h]
  | push => simp [applyPush_exitRequested h]
  | store => simp [applyStore_exitRequested h]

end SpecialCommand

namespace Processor

/-- The next statement is an `exit`, and it is completed. -/
def CompletesExit (host : Host) (program : List Statement) (p : Processor) : Prop :=
  ∃ s flow, program[p.pc]? = some s ∧ s.command = .special .exit ∧
    (p.execute host program.length s).outcome = .ok flow

/-- Running the program from the processor completes an `exit` statement. -/
def Exits (host : Host) (program : List Statement) (p : Processor) : Prop :=
  ∃ q, Reaches host program { p with phase := .running } q ∧ q.CompletesExit host program

/-- Running the program from the processor halts without an error. -/
def EndsWell (host : Host) (program : List Statement) (p : Processor) : Prop :=
  ∃ r halt, p.run host program = some r ∧ r.outcome = .ok halt

variable {host : Host} {program : List Statement} {p q u : Processor} {effects : List Effect}
  {r : Run}

lemma execute_exitRequested (hp : p.stack.Framed) (length : Nat) (s : Statement) :
    (p.execute host length s).processor.exitRequested = true ↔
      p.exitRequested = true ∨ s.command = .special .exit ∧
        ∃ flow, (p.execute host length s).outcome = .ok flow := by
  obtain ⟨c, arguments⟩ := s
  cases c with
  | regular c =>
    obtain ⟨stack, -, he, -⟩ := applyRegular_keeps hp host c arguments
    change (p.applyRegular host c arguments).processor.exitRequested = true ↔ _
    rw [he]
    simp
  | special c =>
    unfold execute
    dsimp only
    cases hx : c.apply p length arguments with
    | error e => simp
    | ok x =>
      obtain ⟨q, flow⟩ := x
      simpa using SpecialCommand.apply_exitRequested hx

lemma step_exitRequested (hp : p.stack.Framed) :
    (p.step host program).processor.exitRequested = true ↔
      p.exitRequested = true ∨ p.CompletesExit host program := by
  unfold step CompletesExit
  cases hs : program[p.pc]? with
  | none => simp [Step.processor, finish]
  | some s =>
    obtain ⟨pc, phase, he⟩ := stepWith_processor host p program.length s
    dsimp only
    rw [he]
    simp [execute_exitRequested hp]

lemma reaches_iff_of_ended (h : p.step host program = .ended r) :
    Reaches host program p u ↔ u = p := by
  constructor
  · rintro (_ | ⟨hq, -⟩)
    · rfl
    · rw [h] at hq
      cases hq
  · rintro rfl
    exact .refl u

lemma reaches_iff_of_on (h : p.step host program = .on q effects) :
    Reaches host program p u ↔ u = p ∨ Reaches host program q u := by
  constructor
  · rintro (_ | ⟨hq, hr⟩)
    · exact .inl rfl
    · rw [h] at hq
      cases hq
      exact .inr hr
  · rintro (rfl | hr)
    · exact .refl u
    · exact .on h hr

/-- A wish to end that a run leaves was there before, or the run completed an `exit` statement. -/
theorem runOn_exitRequested (hp : p.stack.Framed) (h : p.runOn host program = some r) :
    r.processor.exitRequested = true ↔
      p.exitRequested = true ∨ ∃ q, Reaches host program p q ∧ q.CompletesExit host program := by
  induction p using run_induction (fun _ => host) program generalizing r with
  | ended p r' hs =>
    have he : (p.step host program).processor.exitRequested = true ↔ _ := step_exitRequested hp
    rw [hs] at he
    rw [runOn_ended hs] at h
    cases h
    simp only [reaches_iff_of_ended hs, exists_eq_left]
    exact he
  | on p q effects hs ih =>
    have he : (p.step host program).processor.exitRequested = true ↔ _ := step_exitRequested hp
    rw [hs] at he
    rw [runOn_on hs] at h
    by_cases hq : p.pc < q.pc
    · rw [if_pos hq] at h
      obtain ⟨r', hr, rfl⟩ := Option.map_eq_some_iff.1 h
      have hrest := ih hq ((step_on_keeps hp hs).1.framed hp) hr
      simp only [reaches_iff_of_on hs, or_and_right, exists_or, exists_eq_left, ← or_assoc]
      exact hrest.trans (or_congr_left he)
    · rw [if_neg hq] at h
      cases h

end Processor

/-! ### Registries -/

namespace Registry

open Processor (Exits EndsWell)

variable {host : Host} {context : Option Object} {capacity : Nat} {r u : Registry}

/-- The programs that a message starts, one after the other. -/
def started (r : Registry) : Message → List (List Statement)
  | .transaction t => if t.flags.exec then [t.statements] else []
  | .event _ name => r.programs name

/-- While these calls are made of a registry, the program is run for a context, with such answers
of the outside. -/
inductive Executes (host : Host) (context : Option Object) (program : List Statement) :
    Registry → List Call → Prop
  | now {r : Registry} {m : Message} {calls : List Call} (h : program ∈ r.started m) :
    Executes host context program r (.process host m context :: calls)
  | later {r u : Registry} {call : Call} {calls : List Call} (hu : r.after call = some u)
    (h : Executes host context program u calls) : Executes host context program r (call :: calls)

/-- A run of the program, on a stack as it was made, completes an `exit` statement. -/
def Asks (capacity : Nat) (host : Host) (context : Option Object) (program : List Statement) :
    Prop :=
  (Processor.start (.ofCapacity capacity) context).Exits host program

/-- A run of the program, on a stack as it was made, halts without an error. -/
def Succeeds (capacity : Nat) (host : Host) (context : Option Object) (program : List Statement) :
    Prop :=
  (Processor.start (.ofCapacity capacity) context).EndsWell host program

lemma asks_and_succeeds_iff {program : List Statement} {run : Run}
    (h : Processor.run host program (.start (.ofCapacity capacity) context) = some run) :
    Asks capacity host context program ∧ Succeeds capacity host context program ↔
      run.processor.exitRequested = true ∧ ∃ halt, run.outcome = .ok halt := by
  have hexit := Processor.runOn_exitRequested
    (p := { Processor.start (.ofCapacity capacity) context with phase := .running })
    (Stack.framed_startFrame _) h
  refine and_congr (hexit.trans (or_iff_right (by simp [Processor.start]))).symm ?_
  unfold Succeeds EndsWell
  rw [h]
  simp

lemma execute_exitRequested (hr : r.stack = .ofCapacity capacity) {program : List Statement}
    {x : Handled (Except Error (Option Value))} (h : r.execute host program context = some x) :
    x.registry.exitRequested = true ↔ r.exitRequested = true ∨
      Asks capacity host context program ∧ Succeeds capacity host context program := by
  rw [execute_eq hr, hr] at h
  obtain ⟨run, hrun, rfl⟩ := Option.map_eq_some_iff.1 h
  rw [asks_and_succeeds_iff hrun]
  cases ho : run.outcome <;> simp

lemma fireAll_exitRequested (hr : r.stack = .ofCapacity capacity) {names : List String}
    {x : Handled Unit} (h : fireAll host context r names = some x) :
    x.registry.exitRequested = true ↔ r.exitRequested = true ∨
      ∃ program ∈ names.filterMap fun name => (r.transaction? name).map Transaction.statements,
        Asks capacity host context program ∧ Succeeds capacity host context program := by
  induction names generalizing r x with
  | nil =>
    cases h
    simp
  | cons name names ih =>
    cases ht : r.transaction? name with
    | none =>
      rw [fireAll, ht] at h
      rw [List.filterMap_cons_none (by rw [ht]; rfl)]
      exact ih hr h
    | some t =>
      rw [fireAll_cons ht] at h
      obtain ⟨y, hy, h⟩ := Option.bind_eq_some_iff.1 h
      obtain ⟨z, hz, rfl⟩ := Option.map_eq_some_iff.1 h
      have he := execute_registry hr hy
      have hstack : y.registry.stack = .ofCapacity capacity := by rw [he, hr]
      have hsame (n : String) : y.registry.transaction? n = r.transaction? n := by rw [he]; rfl
      have hrest := ih hstack hz
      simp only [hsame] at hrest
      rw [List.filterMap_cons_some (by rw [ht]; rfl)]
      simp only [List.mem_cons, or_and_right, exists_or, exists_eq_left, ← or_assoc]
      exact hrest.trans (or_congr_left (execute_exitRequested hr hy))

lemma process_exitRequested (hr : r.stack = .ofCapacity capacity) {m : Message}
    {x : Handled Reply} (h : r.process host m context = some x) :
    x.registry.exitRequested = true ↔ r.exitRequested = true ∨
      ∃ program ∈ r.started m,
        Asks capacity host context program ∧ Succeeds capacity host context program := by
  cases m with
  | event id name =>
    obtain ⟨y, hy, rfl⟩ := Option.map_eq_some_iff.1 h
    exact fireAll_exitRequested hr hy
  | transaction t =>
    have hkeep (v : Registry) : (v.kept t).exitRequested = v.exitRequested := rfl
    unfold started
    dsimp only
    rw [process_transaction hr] at h
    by_cases he : t.flags.isEmpty
    · have hx : ¬t.flags.exec = true := by
        unfold Flags.isEmpty at he
        simp_all
      rw [if_pos he] at h
      cases h
      simp [hx]
    · rw [if_neg he] at h
      by_cases hx : t.flags.exec
      · rw [if_pos hx, hr] at h
        obtain ⟨run, hrun, rfl⟩ := Option.map_eq_some_iff.1 h
        simp only [hx, if_true, List.mem_singleton, exists_eq_left]
        rw [asks_and_succeeds_iff hrun]
        unfold settled
        cases ho : run.outcome with
        | error failure => simp
        | ok halt => by_cases hg : t.flags.register <;> simp [hg, hkeep]
      · rw [if_neg hx] at h
        cases h
        simp [hx, hkeep]

def Call.Starts (host : Host) (context : Option Object) (program : List Statement) (r : Registry)
    (call : Call) : Prop :=
  ∃ m, call = .process host m context ∧ program ∈ r.started m

lemma executes_cons_iff {program : List Statement} {call : Call} {calls : List Call}
    (hu : r.after call = some u) :
    Executes host context program r (call :: calls) ↔
      call.Starts host context program r ∨ Executes host context program u calls := by
  constructor
  · rintro (h | ⟨hv, h⟩)
    · exact .inl ⟨_, rfl, h⟩
    · rw [hu] at hv
      cases hv
      exact .inr h
  · rintro (⟨m, rfl, h⟩ | h)
    · exact .now h
    · exact .later hu h

lemma after_exitRequested (hr : r.stack = .ofCapacity capacity) {call : Call}
    (h : r.after call = some u) :
    u.exitRequested = true ↔ r.exitRequested = true ∨
      ∃ host context program, call.Starts host context program r ∧
        Asks capacity host context program ∧ Succeeds capacity host context program := by
  cases call with
  | process host m context =>
    obtain ⟨x, hx, rfl⟩ := Option.map_eq_some_iff.1 h
    rw [process_exitRequested hr hx]
    refine or_congr_right ⟨?_, ?_⟩
    · rintro ⟨program, hp, hasks⟩
      exact ⟨host, context, program, ⟨m, rfl, hp⟩, hasks⟩
    · rintro ⟨_, _, program, ⟨_, he, hp⟩, hasks⟩
      cases he
      exact ⟨program, hp, hasks⟩
  | addTransaction t =>
    cases h
    simp [Call.Starts, addTransaction]
  | register event name =>
    cases h
    cases hg : r.register event name with
    | error e => simp [Call.Starts, Except.toOption]
    | ok v => simp [Call.Starts, Except.toOption, eq_of_register hg]
  | unregisterEvent event =>
    cases h
    unfold unregisterEvent
    split <;> simp [Call.Starts, Except.toOption]
  | unregisterTransaction name =>
    cases h
    unfold unregisterTransaction
    split <;> simp [Call.Starts, Except.toOption]

theorem afterAll_exitRequested {calls : List Call} (hr : r.stack = .ofCapacity capacity)
    (h : r.afterAll calls = some u) :
    u.exitRequested = true ↔ r.exitRequested = true ∨
      ∃ host context program, Executes host context program r calls ∧
        Asks capacity host context program ∧ Succeeds capacity host context program := by
  induction calls generalizing r with
  | nil =>
    cases h
    refine ⟨.inl, ?_⟩
    rintro (hu | ⟨_, _, _, hnone, -⟩)
    · exact hu
    · cases hnone
  | cons call calls ih =>
    obtain ⟨v, hv, h⟩ := Option.bind_eq_some_iff.1 h
    have hrest := ih (after_stack hr hv) h
    simp only [executes_cons_iff hv, or_and_right, exists_or, ← or_assoc]
    exact hrest.trans (or_congr_left (after_exitRequested hr hv))

/-- The end is asked for exactly if a program was run that completed an `exit` statement and ended
well, and once it is asked for this stays so. -/
theorem exitRequested_iff_asked_and_succeeded {calls : List Call}
    (h : (ofCapacity capacity).afterAll calls = some r) :
    (r.exitRequested = true ↔ ∃ host context program,
      Executes host context program (ofCapacity capacity) calls ∧
        Asks capacity host context program ∧ Succeeds capacity host context program) ∧
      ∀ (more : List Call) (u : Registry), r.afterAll more = some u →
        r.exitRequested = true → u.exitRequested = true := by
  constructor
  · rw [afterAll_exitRequested rfl h, or_iff_right]
    intro hnew
    cases hnew
  · intro more u hu hexit
    exact (afterAll_exitRequested (afterAll_stack rfl h) hu).2 (.inl hexit)

/-- A transaction that an event starts, asks for the end and jumps out. -/
theorem exitRequested_iff_asked_and_succeeded_fired :
    let program : List Statement := [⟨.special .exit, []⟩, ⟨.special .jump, [.direct (.int 5)]⟩]
    let t : Transaction := ⟨1, "t", ⟨false, true⟩, none, some "e", program⟩
    let calls : List Call := [.process .silent (.transaction t) none,
      .process .silent (.event 2 "e") none]
    ∃ r, (ofCapacity 0).afterAll calls = some r ∧
      (r.exitRequested = true ↔ ∃ host context program,
        Executes host context program (ofCapacity 0) calls ∧
          Asks 0 host context program ∧ Succeeds 0 host context program) ∧
      ∀ (more : List Call) (u : Registry), r.afterAll more = some u →
        r.exitRequested = true → u.exitRequested = true := by
  intro program t calls
  let r : Registry := ⟨.ofCapacity 0, [("t", t)], [("e", ["t"])], false⟩
  let p : Processor := { Processor.start (.ofCapacity 0) none with phase := .running }
  obtain ⟨run, hrun⟩ : ∃ run, Processor.run .silent program (.start (.ofCapacity 0) none) = some run :=
    ⟨_, (Processor.runOn_eq_some_iff (p := p) (Nat.le_refl 0)).2 ⟨2, .on rfl (.ended rfl)⟩⟩
  obtain ⟨x, hx⟩ : ∃ x, r.execute .silent program none = some x := by
    have hr : r.stack = .ofCapacity 0 := rfl
    rw [execute_eq hr, hr, hrun]
    exact ⟨_, rfl⟩
  obtain ⟨y, hy⟩ : ∃ y, r.process .silent (.event 2 "e") none = some y := by
    change ∃ y, Option.map _ ((r.execute .silent program none).bind _) = some y
    rw [hx]
    exact ⟨_, rfl⟩
  have h : (ofCapacity 0).afterAll calls = some y.registry := by
    change ((r.process .silent (.event 2 "e") none).map Handled.registry).bind _ = some y.registry
    rw [hy]
    rfl
  exact ⟨_, h, exitRequested_iff_asked_and_succeeded h⟩

/-- A new registry that runs a transaction which completes an `exit` statement and then fails is
not asked to end. -/
theorem exit_before_failure_lost :
    let program : List Statement :=
      [⟨.special .exit, []⟩, ⟨.regular .div, [.direct (.int 1), .direct (.int 0)]⟩]
    let t : Transaction := ⟨1, "", ⟨true, false⟩, none, none, program⟩
    let calls : List Call := [.process .silent (.transaction t) none]
    ∃ r, (ofCapacity 16).afterAll calls = some r ∧
      Executes .silent none program (ofCapacity 16) calls ∧
      Asks 16 .silent none program ∧ r.exitRequested = false := by
  intro program t calls
  let p : Processor := { Processor.start (.ofCapacity 16) none with phase := .running }
  let q : Processor := { p with pc := 1, exitRequested := true }
  have hstep : p.step .silent program = .on q [] := rfl
  have hasks : Asks 16 .silent none program :=
    ⟨p, .refl p, _, _, rfl, rfl, (rfl : _ = Except.ok Flow.next)⟩
  have hfails : ∃ run f, q.step .silent program = .ended run ∧ run.outcome = .error f :=
    ⟨_, _, rfl, rfl⟩
  obtain ⟨run, f, hended, hf⟩ := hfails
  have hrun : Processor.run .silent program (.start (.ofCapacity 16) none) = some (run.after []) :=
    (Processor.runOn_eq_some_iff (p := p) (Nat.le_refl 0)).2 ⟨2, .on hstep (.ended hended)⟩
  have hprocess : (ofCapacity 16).process .silent (.transaction t) none =
      some ((ofCapacity 16).settled t (run.after [])) := by
    have hr : (ofCapacity 16).stack = .ofCapacity 16 := rfl
    rw [process_transaction hr, if_neg (by decide), if_pos rfl]
    change Option.map _ (Processor.run .silent program (.start (.ofCapacity 16) none)) = _
    rw [hrun]
    rfl
  have hcalls : (ofCapacity 16).afterAll calls =
      some ((ofCapacity 16).settled t (run.after [])).registry := by
    change (((ofCapacity 16).process .silent (.transaction t) none).map Handled.registry).bind _ = _
    rw [hprocess]
    rfl
  refine ⟨_, hcalls, .now (List.mem_singleton_self program), hasks, ?_⟩
  have ho : (run.after []).outcome = .error f := hf
  unfold settled
  rw [ho]
  rfl

end Registry

end TransactionEngine
