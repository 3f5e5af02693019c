import TransactionEngine.Proofs.ForwardRuns

/-!
# Runs one after the other

A processor can be moved and run as often as one likes. How far a jump has led out of the program is
never forgotten. So after the first jump out, a run ends with its first statement, and it is said to
have jumped out as far as the earlier one, unless that statement fails or leads out itself. Until
then, what a run comes to is told by its own statements.
-/

namespace TransactionEngine.Processor

/-- A call on a processor: a jump that is no statement, or a run. -/
inductive Call where
  | jump (delta : Int64)
  | run (hosts : Nat → Host)

/-- The processor after a jump that is no statement; it stays where it is if that leads nowhere. -/
def jumpTo (program : List Statement) (p : Processor) (delta : Int64) : Processor :=
  match p.landing program.length delta with
  | .ok landing => p.move landing
  | .error _ => p

/-- Runs a program in which statement `i` asks `hosts i`; `none` when the run does not end. -/
def rerun (hosts : Nat → Host) (program : List Statement) (p : Processor) : Option Run :=
  { p with phase := .running }.runBy hosts program

/-- The runs that calls make and the processor after them; `none` when a run does not end. -/
def performAll (program : List Statement) : List Call → Processor → Option (List Run × Processor)
  | [], p => some ([], p)
  | .jump delta :: calls, p => performAll program calls (p.jumpTo program delta)
  | .run hosts :: calls, p => do
    let r ← p.rerun hosts program
    let (runs, q) ← performAll program calls r.processor
    pure (r :: runs, q)

/-- The phase of a processor whose last run came to this. -/
def phaseOf : Except Failure Halt → Phase
  | .ok (.done _) => .done
  | .ok (.jumpedOut spill _) => .jumpedOut spill
  | .error _ => .failed

/-- The run was ended by a jump out of the program. -/
def JumpedOut (outcome : Except Failure Halt) : Prop :=
  ∃ spill value, outcome = .ok (.jumpedOut spill value)

/-- The statement that runs next is a jump to a place past the end. -/
def LeadsOut (program : List Statement) (p : Processor) (spill : Nat) : Prop :=
  ∃ s delta, program[p.pc]? = some s ∧ p.Jumps s delta ∧ 0 ≤ delta.toInt ∧
    program.length ≤ p.pc + delta.toInt.toNat ∧
    spill = p.pc + delta.toInt.toNat - program.length + 1

/-- The statement that runs next fails. -/
def Fails (hosts : Nat → Host) (program : List Statement) (p : Processor) : Prop :=
  ∃ s e, program[p.pc]? = some s ∧ (p.execute (hosts p.pc) program.length s).outcome = .error e

/-- The statement that runs next neither fails nor leads out. -/
def GoesOn (hosts : Nat → Host) (program : List Statement) (p : Processor) : Prop :=
  ¬Fails hosts program p ∧ ∀ spill, ¬LeadsOut program p spill

/-- A run from the first processor comes to the second one, executes the statement there, and
executes none after that. -/
def LastAt (hosts : Nat → Host) (program : List Statement) (p q : Processor) : Prop :=
  ∃ n effects, stepsBy hosts program n p = .on q effects ∧ q.pc < program.length ∧
    ∀ u more, q.step (hosts q.pc) program = .on u more → program.length ≤ u.pc

/-- A run comes to the end of the program. -/
def ReachesEnd (hosts : Nat → Host) (program : List Statement) (p : Processor) : Prop :=
  ∃ n q effects, stepsBy hosts program n p = .on q effects ∧ program.length ≤ q.pc

/-- What a run from `p` came to is what its last statement did. -/
structure Reflects (hosts : Nat → Host) (program : List Statement) (p : Processor)
    (outcome : Except Failure Halt) : Prop where
  jumpedOut (spill : Nat) : (∃ value, outcome = .ok (.jumpedOut spill value)) ↔
    ∃ q, LastAt hosts program p q ∧ LeadsOut program q spill
  done : (∃ value, outcome = .ok (.done value)) ↔ ReachesEnd hosts program p ∧
    ¬∃ q, LastAt hosts program p q ∧ (Fails hosts program q ∨ ∃ spill, LeadsOut program q spill)

variable {hosts : Nat → Host} {program : List Statement} {p q u : Processor} {r : Run}
  {effects more : List Effect} {spill : Nat}

lemma step_of_leadsOut (h : LeadsOut program p spill) (host : Host) :
    p.step host program = .ended ⟨{ p with spill, phase := .jumpedOut spill },
      .ok (.jumpedOut spill p.stack.result), []⟩ := by
  obtain ⟨s, delta, hs, hj, hd, hl, rfl⟩ := h
  obtain ⟨c, hc, ha⟩ : ∃ c, s.command = .special c ∧ c.apply p program.length s.arguments =
      SpecialCommand.jumpBy p program.length delta := apply_of_jumps hj
  rw [SpecialCommand.jumpBy_forward hd, if_neg (Nat.not_lt.2 hl)] at ha
  have hx : p.execute host program.length s =
      ⟨{ p with spill := p.pc + delta.toInt.toNat - program.length + 1 }, .ok .next, []⟩ := by
    unfold execute
    rw [hc]
    dsimp only
    rw [ha]
  unfold step
  rw [hs]
  dsimp only
  unfold stepWith
  rw [hx]
  dsimp only
  rw [if_pos (Nat.succ_pos _)]

lemma step_of_fails (h : Fails hosts program p) :
    ∃ r f, p.step (hosts p.pc) program = .ended r ∧ r.outcome = .error f := by
  obtain ⟨s, e, hs, he⟩ := h
  unfold step
  rw [hs]
  dsimp only
  unfold stepWith
  dsimp only
  rw [he]
  exact ⟨_, _, rfl, rfl⟩

/-- A statement that would go on ends a run all the same if a jump has led out before. -/
lemma GoesOn.step (h : GoesOn hosts program p) (hp : p.stack.Framed)
    (hpc : p.pc < program.length) :
    (p.spill = 0 → ∃ q effects, p.step (hosts p.pc) program = .on q effects) ∧
      (0 < p.spill → ∃ r value, p.step (hosts p.pc) program = .ended r ∧
        r.outcome = .ok (.jumpedOut p.spill value)) := by
  have hs := List.getElem?_eq_getElem hpc
  generalize program[p.pc] = s at hs
  have hm := execute_moves hp (hosts p.pc) program.length s
  have hok : ∀ e, (p.execute (hosts p.pc) program.length s).outcome ≠ .error e :=
    fun e he => h.1 ⟨s, e, hs, he⟩
  unfold Processor.step
  rw [hs]
  dsimp only
  unfold stepWith
  generalize p.execute (hosts p.pc) program.length s = x at hm hok ⊢
  obtain ⟨q, outcome, effects⟩ := x
  dsimp only at hm hok ⊢
  have hgo (hz : p.spill = 0) : ¬0 < p.spill := by omega
  cases hm with
  | failed hk e => exact absurd rfl (hok e)
  | left hj hd hlen => exact absurd ⟨s, _, hs, hj, hd, hlen, rfl⟩ (h.2 _)
  | worked => exact ⟨fun hz => ⟨_, _, if_neg (hgo hz)⟩, fun hz => ⟨_, _, if_pos hz, rfl⟩⟩
  | jumped => exact ⟨fun hz => ⟨_, _, if_neg (hgo hz)⟩, fun hz => ⟨_, _, if_pos hz, rfl⟩⟩
  | exited => exact ⟨fun hz => ⟨_, _, if_neg (hgo hz)⟩, fun hz => ⟨_, _, if_pos hz, rfl⟩⟩

lemma not_goesOn_iff : ¬GoesOn hosts program p ↔
    Fails hosts program p ∨ ∃ spill, LeadsOut program p spill := by
  rw [GoesOn, not_and_or, not_not, not_forall]
  simp only [not_not]

lemma goesOn_of_on (h : p.step (hosts p.pc) program = .on q effects) :
    GoesOn hosts program p := by
  constructor
  · intro hf
    obtain ⟨r, f, hr, -⟩ := step_of_fails hf
    rw [hr] at h
    cases h
  · intro spill hl
    rw [step_of_leadsOut hl] at h
    cases h

lemma LeadsOut.unique {other : Nat} (h : LeadsOut program p spill) (h' : LeadsOut program p other) :
    spill = other := by
  have heq := (step_of_leadsOut h .silent).symm.trans (step_of_leadsOut h' .silent)
  cases heq
  rfl

lemma after_eq_on_iff {x : Step} :
    x.after effects = .on q more ↔ ∃ rest, x = .on q rest ∧ effects ++ rest = more := by
  cases x with
  | ended r => simp [Step.after]
  | on u rest =>
    simp only [Step.after, Step.on.injEq]
    constructor
    · rintro ⟨rfl, rfl⟩
      exact ⟨rest, ⟨rfl, rfl⟩, rfl⟩
    · rintro ⟨_, ⟨rfl, rfl⟩, rfl⟩
      exact ⟨rfl, rfl⟩

/-- What a run comes to is where it is, if the next step ends it. -/
lemma stepsBy_on_iff_of_ended (h : p.step (hosts p.pc) program = .ended r) {n : Nat} :
    stepsBy hosts program n p = .on q effects ↔ n = 0 ∧ q = p ∧ effects = [] := by
  cases n with
  | zero => simp [stepsBy, eq_comm]
  | succ n => simp [stepsBy_ended h]

lemma lastAt_ended (hpc : p.pc < program.length) (h : p.step (hosts p.pc) program = .ended r) :
    LastAt hosts program p q ↔ q = p := by
  constructor
  · rintro ⟨n, effects, hn, -, -⟩
    exact ((stepsBy_on_iff_of_ended h).1 hn).2.1
  · rintro rfl
    refine ⟨0, [], rfl, hpc, fun u more hu => ?_⟩
    rw [h] at hu
    cases hu

lemma not_reachesEnd (hpc : p.pc < program.length) (h : p.step (hosts p.pc) program = .ended r) :
    ¬ReachesEnd hosts program p := by
  rintro ⟨n, q, effects, hn, hq⟩
  obtain ⟨-, rfl, -⟩ := (stepsBy_on_iff_of_ended h).1 hn
  exact Nat.not_lt.2 hq hpc

lemma not_lastAt_end (h : p.step (hosts p.pc) program = .ended r) (hpc : program.length ≤ p.pc) :
    ¬LastAt hosts program p q := by
  rintro ⟨n, effects, hn, hq, -⟩
  obtain ⟨-, rfl, -⟩ := (stepsBy_on_iff_of_ended h).1 hn
  exact Nat.not_lt.2 hpc hq

lemma reachesEnd_on (h : p.step (hosts p.pc) program = .on q effects) :
    ReachesEnd hosts program p ↔ ReachesEnd hosts program q := by
  constructor
  · rintro ⟨n, u, more, hn, hu⟩
    cases n with
    | zero =>
      cases hn
      exact absurd (step_on_inside h).1 (Nat.not_lt.2 hu)
    | succ n =>
      rw [stepsBy_on h] at hn
      obtain ⟨rest, hrest, -⟩ := after_eq_on_iff.1 hn
      exact ⟨n, u, rest, hrest, hu⟩
  · rintro ⟨n, u, more, hn, hu⟩
    exact ⟨n + 1, u, effects ++ more, by rw [stepsBy_on h, hn]; rfl, hu⟩

lemma lastAt_on (h : p.step (hosts p.pc) program = .on q effects) (hq : q.pc < program.length) :
    LastAt hosts program p u ↔ LastAt hosts program q u := by
  constructor
  · rintro ⟨n, more, hn, hu⟩
    cases n with
    | zero =>
      cases hn
      exact absurd (hu.2 q effects h) (Nat.not_le.2 hq)
    | succ n =>
      rw [stepsBy_on h] at hn
      obtain ⟨rest, hrest, -⟩ := after_eq_on_iff.1 hn
      exact ⟨n, rest, hrest, hu⟩
  · rintro ⟨n, more, hn, hu⟩
    exact ⟨n + 1, effects ++ more, by rw [stepsBy_on h, hn]; rfl, hu⟩

/-- The last statement is the one before the end of the program. -/
lemma lastAt_seam (h : p.step (hosts p.pc) program = .on q effects) (hq : program.length ≤ q.pc) :
    LastAt hosts program p u ↔ u = p := by
  constructor
  · rintro ⟨n, more, hn, hu⟩
    cases n with
    | zero =>
      cases hn
      rfl
    | succ n =>
      rw [stepsBy_on h] at hn
      obtain ⟨rest, hrest, -⟩ := after_eq_on_iff.1 hn
      have hend := step_finish (List.getElem?_eq_none_iff.2 hq) (hosts q.pc)
      obtain ⟨-, rfl, -⟩ := (stepsBy_on_iff_of_ended hend).1 hrest
      exact absurd hu.1 (Nat.not_lt.2 hq)
  · rintro rfl
    refine ⟨0, [], rfl, (step_on_inside h).1, fun v more hv => ?_⟩
    rw [h] at hv
    cases hv
    exact hq

/-- A run that its first statement ends by itself reflects that statement, whatever was before. -/
lemma reflects_of_first (h : Fails hosts program p ∨ ∃ spill, LeadsOut program p spill)
    (hr : p.runBy hosts program = some r) : Reflects hosts program p r.outcome := by
  have hpc : p.pc < program.length := by
    obtain ⟨s, _, hs, _⟩ | ⟨_, s, _, hs, _⟩ := h <;> exact (List.getElem?_eq_some_iff.1 hs).1
  obtain hf | ⟨spill, hl⟩ := h
  · obtain ⟨u, f, hu, ho⟩ := step_of_fails hf
    rw [runBy_ended hu] at hr
    cases hr
    constructor
    · intro spill
      rw [ho]
      refine iff_of_false nofun ?_
      rintro ⟨q, hq, hl⟩
      rw [(lastAt_ended hpc hu).1 hq, LeadsOut] at hl
      have hled := step_of_leadsOut hl (hosts p.pc)
      rw [hu] at hled
      cases hled
      cases ho
    · rw [ho]
      exact iff_of_false nofun fun hend => not_reachesEnd hpc hu hend.1
  · have hu := step_of_leadsOut hl (hosts p.pc)
    rw [runBy_ended hu] at hr
    cases hr
    constructor
    · intro other
      simp only [lastAt_ended hpc hu, exists_eq_left]
      constructor
      · rintro ⟨value, ⟨⟩⟩
        exact hl
      · intro hother
        obtain rfl := hl.unique hother
        exact ⟨_, rfl⟩
    · exact iff_of_false nofun fun hend => not_reachesEnd hpc hu hend.1

lemma reflects_done {value : Option Value} (hend : ReachesEnd hosts program p)
    (h : ∀ q, LastAt hosts program p q → GoesOn hosts program q) :
    Reflects hosts program p (.ok (.done value)) where
  jumpedOut spill := iff_of_false nofun fun ⟨q, hq, hl⟩ => (h q hq).2 spill hl
  done := by
    refine iff_of_true ⟨value, rfl⟩ ⟨hend, ?_⟩
    rintro ⟨q, hq, hf | ⟨spill, hl⟩⟩
    · exact (h q hq).1 hf
    · exact (h q hq).2 spill hl

lemma Within.of_on (hp : p.Within program) (h : p.step (hosts p.pc) program = .on q effects) :
    q.Within program := by
  have hpc := (step_on_inside h).1
  obtain ⟨u, more, hu, hw⟩ | ⟨_, _, _, _, he⟩ | ⟨_, _, _, _, _, hl⟩ :=
    step_cases hp (List.getElem?_eq_getElem hpc) (hosts p.pc)
  · rw [hu] at h
    cases h
    exact hw
  · rw [he] at h
    cases h
  · rw [hl] at h
    cases h

/-- As long as no jump has led out, every run reflects its last statement. -/
theorem reflects_of_within (hp : p.Within program) (hr : p.runBy hosts program = some r) :
    Reflects hosts program p r.outcome := by
  induction p using run_induction hosts program generalizing r with
  | ended p u hu =>
    by_cases hfirst : GoesOn hosts program p
    · -- The step can only have come to the end.
      have hpc : program.length ≤ p.pc := by
        by_contra hlt
        obtain ⟨q, effects, hq⟩ := (hfirst.step hp.framed (Nat.not_le.1 hlt)).1 hp.spill
        rw [hu] at hq
        cases hq
      rw [runBy_ended (step_finish (List.getElem?_eq_none_iff.2 hpc) _)] at hr
      cases hr
      exact reflects_done ⟨0, p, [], rfl, hpc⟩ fun q hq => absurd hq (not_lastAt_end hu hpc)
    · exact reflects_of_first (not_goesOn_iff.1 hfirst) hr
  | on p q effects h ih =>
    rw [runBy_on h] at hr
    by_cases hq : p.pc < q.pc
    · rw [if_pos hq] at hr
      obtain ⟨u, hu, rfl⟩ := Option.map_eq_some_iff.1 hr
      have hw := hp.of_on h
      by_cases hend : q.pc < program.length
      · have hrest := ih hq hw hu
        change Reflects hosts program p u.outcome
        refine ⟨fun spill => ?_, ?_⟩
        · simpa only [lastAt_on h hend] using hrest.jumpedOut spill
        · simpa only [lastAt_on h hend, reachesEnd_on h] using hrest.done
      · have hpc := Nat.not_lt.1 hend
        rw [runBy_ended (step_finish (List.getElem?_eq_none_iff.2 hpc) _)] at hu
        cases hu
        refine reflects_done ((reachesEnd_on h).2 ⟨0, q, [], rfl, hpc⟩) fun u hu => ?_
        rw [(lastAt_seam h hpc).1 hu]
        exact goesOn_of_on h
    · rw [if_neg hq] at hr
      cases hr

/-! ### Calls one after the other -/

/-- What a step that ends a run leaves of the processor. -/
structure Left (program : List Statement) (p : Processor) (r : Run) : Prop where
  framed : r.processor.stack.Framed
  pc : r.processor.pc ≤ program.length
  phase : r.processor.phase = phaseOf r.outcome
  spill : r.processor.spill = 0 ↔ p.spill = 0 ∧ ¬JumpedOut r.outcome
  inside : 0 < r.processor.spill → r.processor.pc < program.length

lemma stepWith_ended {host : Host} {length : Nat} {s : Statement}
    (h : p.stepWith host length s = .ended r) :
    (∃ e f, (p.execute host length s).outcome = .error e ∧
      r.processor = { (p.execute host length s).processor with phase := .failed } ∧
      r.outcome = .error f) ∨
    ∃ flow value, (p.execute host length s).outcome = .ok flow ∧
      let q := (p.execute host length s).processor
      0 < q.spill ∧ r.processor = { q with phase := .jumpedOut q.spill } ∧
        r.outcome = .ok (.jumpedOut q.spill value) := by
  unfold stepWith at h
  dsimp only at h
  cases ho : (p.execute host length s).outcome with
  | error e =>
    rw [ho] at h
    cases h
    exact .inl ⟨e, _, rfl, rfl, rfl⟩
  | ok flow =>
    rw [ho] at h
    dsimp only at h
    by_cases hz : 0 < (p.execute host length s).processor.spill
    · rw [if_pos hz] at h
      cases h
      exact .inr ⟨flow, _, rfl, hz, rfl, rfl⟩
    · rw [if_neg hz] at h
      cases flow <;> cases h

lemma left_of_ended (hp : p.stack.Framed) (hpc : p.pc < program.length)
    (h : p.step (hosts p.pc) program = .ended r) : Left program p r := by
  have hs := List.getElem?_eq_getElem hpc
  generalize program[p.pc] = s at hs
  unfold step at h
  rw [hs] at h
  have hm := execute_moves hp (hosts p.pc) program.length s
  have hended := stepWith_ended h
  generalize p.execute (hosts p.pc) program.length s = x at hm hended
  obtain ⟨q, outcome, effects⟩ := x
  obtain ⟨e, f, rfl, hq, ho⟩ | ⟨flow, value, rfl, hz, hq, ho⟩ := hended
  · -- A statement that fails touches no more than the stack.
    cases hm with
    | failed hk =>
      have hn : ¬JumpedOut r.outcome := by
        rw [ho]
        rintro ⟨_, _, ⟨⟩⟩
      refine ⟨?_, ?_, ?_, ?_, ?_⟩
      all_goals rw [hq]
      · exact hk.framed hp
      · exact Nat.le_of_lt hpc
      · rw [ho]
        rfl
      · exact (and_iff_left hn).symm
      · exact fun _ => hpc
  · have hj : JumpedOut r.outcome := ⟨_, _, ho⟩
    have hinside : q.stack.Framed ∧ q.pc < program.length := by
      cases hm with
      | worked hk => exact ⟨hk.framed hp, hpc⟩
      | exited => exact ⟨hp, hpc⟩
      | jumped _ _ hl => exact ⟨hp, hl⟩
      | left => exact ⟨hp, hpc⟩
    refine ⟨?_, ?_, ?_, ?_, ?_⟩
    all_goals rw [hq]
    · exact hinside.1
    · exact Nat.le_of_lt hinside.2
    · rw [ho]
      rfl
    · exact iff_of_false (Nat.ne_of_gt hz) fun hn => hn.2 hj
    · exact fun _ => hinside.2

lemma left_of_finish (hp : p.Within program) : Left program p p.finish where
  framed := hp.framed
  pc := hp.pc
  phase := rfl
  spill := (and_iff_left (by rintro ⟨_, _, ⟨⟩⟩)).symm
  inside h := absurd hp.spill (Nat.ne_of_gt h)

lemma left_of_within (hp : p.Within program) (hr : p.runBy hosts program = some r) :
    Left program p r := by
  induction p using run_induction hosts program generalizing r with
  | ended p u hu =>
    rw [runBy_ended hu] at hr
    cases hr
    by_cases hpc : p.pc < program.length
    · exact left_of_ended hp.framed hpc hu
    · rw [step_finish (List.getElem?_eq_none_iff.2 (Nat.not_lt.1 hpc))] at hu
      cases hu
      exact left_of_finish hp
  | on p q effects h ih =>
    rw [runBy_on h] at hr
    by_cases hq : p.pc < q.pc
    · rw [if_pos hq] at hr
      obtain ⟨u, hu, rfl⟩ := Option.map_eq_some_iff.1 hr
      have hw := hp.of_on h
      have hrest := ih hq hw hu
      have hspill : u.processor.spill = 0 ↔ p.spill = 0 ∧ ¬JumpedOut u.outcome := by
        simpa only [hp.spill, hw.spill] using hrest.spill
      exact ⟨hrest.framed, hrest.pc, hrest.phase, hspill, hrest.inside⟩
    · rw [if_neg hq] at hr
      cases hr

/-- Once a jump has led out, a run is its first statement. -/
lemma step_of_spill (hp : p.stack.Framed) (hpc : p.pc < program.length) (hz : 0 < p.spill) :
    ∃ r, p.step (hosts p.pc) program = .ended r := by
  by_cases h : GoesOn hosts program p
  · obtain ⟨r, value, hr, -⟩ := (h.step hp hpc).2 hz
    exact ⟨r, hr⟩
  · obtain hf | ⟨spill, hl⟩ := not_goesOn_iff.1 h
    · obtain ⟨r, f, hr, -⟩ := step_of_fails hf
      exact ⟨r, hr⟩
    · exact ⟨_, step_of_leadsOut hl _⟩

/-- What is known of a processor after calls, and of the runs that they made. -/
structure Kept (program : List Statement) (runs : List Run) (p : Processor) : Prop where
  framed : p.stack.Framed
  pc : p.pc ≤ program.length
  phase : p.phase = (runs.getLast?.map fun r => phaseOf r.outcome).getD .ready
  spill : p.spill = 0 ↔ ∀ r ∈ runs, ¬JumpedOut r.outcome
  inside : 0 < p.spill → p.pc < program.length

variable {runs : List Run} {calls : List Call}

lemma kept_start (program : List Statement) (stack : Stack) (context : Option Object) :
    Kept program [] (start stack context) where
  framed := Stack.framed_startFrame stack
  pc := Nat.zero_le _
  phase := rfl
  spill := iff_of_true rfl fun _ hr => absurd hr List.not_mem_nil
  inside h := absurd h (Nat.lt_irrefl 0)

lemma Kept.jumpTo (h : Kept program runs p) (delta : Int64) :
    Kept program runs (p.jumpTo program delta) := by
  unfold Processor.jumpTo
  cases hl : p.landing program.length delta with
  | error e => exact h
  | ok landing =>
    obtain ⟨target, rfl, ht⟩ | ⟨spill, rfl, -⟩ := landing_cases hl
    · exact ⟨h.framed, Nat.le_of_lt ht, h.phase, h.spill, fun _ => ht⟩
    · exact h

lemma Kept.left (h : Kept program runs p) (hr : p.rerun hosts program = some r) :
    Left program p r := by
  let q : Processor := { p with phase := .running }
  have hleft : Left program q r := by
    obtain hz | hz := Nat.eq_zero_or_pos p.spill
    · exact left_of_within (p := q) ⟨hz, h.pc, h.framed⟩ hr
    · obtain ⟨u, hu⟩ : ∃ u, q.step (hosts q.pc) program = .ended u :=
        step_of_spill (p := q) h.framed (h.inside hz) hz
      rw [Processor.rerun, runBy_ended hu] at hr
      cases hr
      exact left_of_ended h.framed (h.inside hz) hu
  exact ⟨hleft.framed, hleft.pc, hleft.phase, hleft.spill, hleft.inside⟩

lemma Kept.rerun (h : Kept program runs p) (hr : p.rerun hosts program = some r) :
    Kept program (runs ++ [r]) r.processor := by
  have hleft := h.left hr
  refine ⟨hleft.framed, hleft.pc, ?_, ?_, hleft.inside⟩
  · rw [List.getLast?_concat]
    exact hleft.phase
  · rw [hleft.spill, h.spill, List.forall_mem_append, List.forall_mem_singleton]

lemma Kept.performAll (h : Kept program runs p) {more : List Run}
    (hc : performAll program calls p = some (more, q)) : Kept program (runs ++ more) q := by
  induction calls generalizing p runs more with
  | nil =>
    cases hc
    rw [List.append_nil]
    exact h
  | cons call calls ih =>
    cases call with
    | jump delta => exact ih (h.jumpTo delta) hc
    | run hosts =>
      simp only [Processor.performAll, Option.bind_eq_bind, Option.bind_eq_some_iff,
        Option.pure_def, Option.some.injEq, Prod.mk.injEq] at hc
      obtain ⟨r, hr, ⟨rest, u⟩, hrest, rfl, rfl⟩ := hc
      have hall := ih (h.rerun hr) hrest
      rwa [List.append_assoc, List.singleton_append] at hall

/-- A processor says of itself what its last run came to. A run comes to what its own last statement
did exactly if no earlier run of the processor jumped out, or if the first statement of the run
fails or leads out itself. -/
theorem run_reflects_itself_iff {stack : Stack} {context : Option Object}
    (hc : performAll program calls (start stack context) = some (runs, p))
    (hr : p.rerun hosts program = some r) :
    let q : Processor := { p with phase := .running }
    p.phase = (runs.getLast?.map fun u => phaseOf u.outcome).getD .ready ∧
      r.processor.phase = phaseOf r.outcome ∧
      (Reflects hosts program q r.outcome ↔ (∀ u ∈ runs, ¬JumpedOut u.outcome) ∨
        Fails hosts program q ∨ ∃ spill, LeadsOut program q spill) := by
  intro q
  have hk : Kept program runs p := (kept_start program stack context).performAll hc
  refine ⟨hk.phase, (hk.left hr).phase, ?_⟩
  rw [← hk.spill, ← not_goesOn_iff]
  constructor
  · intro hreflects
    by_contra hn
    obtain ⟨hz, hgo⟩ := not_or.1 hn
    have hpos := Nat.pos_of_ne_zero hz
    have hpc : q.pc < program.length := hk.inside hpos
    obtain ⟨u, value, hu, ho⟩ := ((not_not.1 hgo).step (p := q) hk.framed hpc).2 hpos
    rw [rerun, runBy_ended hu] at hr
    cases hr
    -- The place of an earlier jump out is not where the only statement of this run leads.
    obtain ⟨v, hv, hl⟩ := (hreflects.jumpedOut _).1 ⟨value, ho⟩
    rw [(lastAt_ended hpc hu).1 hv] at hl
    exact (not_not.1 hgo).2 _ hl
  · rintro (hz | hgo)
    · exact reflects_of_within (p := q) ⟨hz, hk.pc, hk.framed⟩ hr
    · exact reflects_of_first (not_goesOn_iff.1 hgo) hr

/-- After a jump out, the last statement of the program leads out by one place, and the run says so
whatever the earlier one said. -/
theorem run_reflects_itself_iff_led_out :
    let program : List Statement :=
      [⟨.special .jump, [.direct (.int 5)]⟩, ⟨.special .push, []⟩,
        ⟨.special .jump, [.direct (.int 1)]⟩]
    let hosts (_ : Nat) : Host := .silent
    let p (pc : Nat) (spill : Nat) (phase : Phase) : Processor :=
      ⟨⟨[], 0, 4, 4⟩, none, 0, pc, spill, false, phase⟩
    let earlier : Run := ⟨p 0 3 (.jumpedOut 3), .ok (.jumpedOut 3 none), []⟩
    let r : Run := ⟨p 2 1 (.jumpedOut 1), .ok (.jumpedOut 1 none), []⟩
    performAll program [.run hosts, .jump 2] (start ⟨[], 0, 4, 4⟩ none) =
        some ([earlier], p 2 3 (.jumpedOut 3)) ∧
      (p 2 3 (.jumpedOut 3)).rerun hosts program = some r ∧
      Reflects hosts program (p 2 3 .running) r.outcome := by
  intro program hosts p earlier r
  have hfirst : LeadsOut program (p 0 0 .running) 3 :=
    ⟨_, 5, rfl, .jump rfl, by decide, by decide, rfl⟩
  have hsecond : LeadsOut program (p 2 3 .running) 1 :=
    ⟨_, 1, rfl, .jump rfl, by decide, by decide, rfl⟩
  have hearlier : (p 0 0 .ready).rerun hosts program = some earlier :=
    runBy_ended (step_of_leadsOut hfirst _)
  have hr : (p 2 3 (.jumpedOut 3)).rerun hosts program = some r :=
    runBy_ended (step_of_leadsOut hsecond _)
  have hc : performAll program [.run hosts, .jump 2] (start ⟨[], 0, 4, 4⟩ none) =
      some ([earlier], p 2 3 (.jumpedOut 3)) := by
    change (p 0 0 .ready).rerun hosts program >>= _ = _
    rw [hearlier]
    rfl
  exact ⟨hc, hr, (run_reflects_itself_iff hc hr).2.2.2 (.inr (.inr ⟨1, hsecond⟩))⟩

/-- A processor that jumped out is moved to a statement that only pushes, and is said to have jumped
out by it. -/
theorem push_reported_as_jump_out :
    let program : List Statement :=
      [⟨.special .jump, [.direct (.int 5)]⟩, ⟨.special .push, []⟩]
    let hosts (_ : Nat) : Host := .silent
    ∃ runs p r, performAll program [.run hosts, .jump 1] (start ⟨[], 0, 4, 4⟩ none) =
        some (runs, p) ∧
      p.rerun hosts program = some r ∧ r.outcome = .ok (.jumpedOut 4 (some .nil)) ∧
      ¬Reflects hosts program { p with phase := .running } r.outcome := by
  intro program hosts
  let p (pc : Nat) (spill : Nat) (phase : Phase) : Processor :=
    ⟨⟨[], 0, 4, 4⟩, none, 0, pc, spill, false, phase⟩
  let earlier : Run := ⟨p 0 4 (.jumpedOut 4), .ok (.jumpedOut 4 none), []⟩
  let r : Run := ⟨⟨⟨[.nil], 0, 4, 4⟩, none, 0, 1, 4, false, .jumpedOut 4⟩,
    .ok (.jumpedOut 4 (some .nil)), []⟩
  have hfirst : LeadsOut program (p 0 0 .running) 4 :=
    ⟨_, 5, rfl, .jump rfl, by decide, by decide, rfl⟩
  have hearlier : (p 0 0 .ready).rerun hosts program = some earlier :=
    runBy_ended (step_of_leadsOut hfirst _)
  have hpush : (p 1 4 .running).step (hosts 1) program = .ended r := rfl
  have hc : performAll program [.run hosts, .jump 1] (start ⟨[], 0, 4, 4⟩ none) =
      some ([earlier], p 1 4 (.jumpedOut 4)) := by
    change (p 0 0 .ready).rerun hosts program >>= _ = _
    rw [hearlier]
    rfl
  refine ⟨_, _, r, hc, runBy_ended hpush, rfl, fun hreflects => ?_⟩
  obtain ⟨q, hq, s, delta, hs, hj, -⟩ := (hreflects.jumpedOut 4).1 ⟨_, rfl⟩
  have hpc : (p 1 4 .running).pc < program.length := Nat.lt_succ_self 1
  obtain rfl : q = p 1 4 .running := (lastAt_ended hpc hpush).1 hq
  cases hs
  cases hj

end TransactionEngine.Processor
