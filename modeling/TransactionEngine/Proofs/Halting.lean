import TransactionEngine.Proofs.Moves

/-!
# Runs that halt

`Halts` is a run step by step, with the answers of the outside for each statement, and `Reaches`
is the beginning of one. A run that `runOn` gives is one that halts; it gives none exactly when
the run comes to a jump over no statement, which leads to itself.
-/

namespace TransactionEngine

/-- The processor after a step. -/
def Processor.Step.processor : Step → Processor
  | .ended r => r.processor
  | .on q _ => q

namespace Processor

/-- Running the program from a processor halts after as many steps as there are hosts. Each step
has its own, for what it asks of the outside. -/
inductive Halts (program : List Statement) : List Host → Processor → Run → Prop
  | ended {host : Host} {p : Processor} {r : Run} (h : p.step host program = .ended r) :
    Halts program [host] p r
  | on {host : Host} {hosts : List Host} {p q : Processor} {effects : List Effect} {r : Run}
    (h : p.step host program = .on q effects) (hr : Halts program hosts q r) :
    Halts program (host :: hosts) p (r.after effects)

/-- Running the program from the first processor comes to the second before it halts. -/
inductive Reaches (host : Host) (program : List Statement) : Processor → Processor → Prop
  | refl (p : Processor) : Reaches host program p p
  | on {p q r : Processor} {effects : List Effect} (h : p.step host program = .on q effects)
    (hr : Reaches host program q r) : Reaches host program p r

/-- The next statement is a jump over no statement. -/
def Stuck (program : List Statement) (p : Processor) : Prop :=
  p.spill = 0 ∧ ∃ s, program[p.pc]? = some s ∧ p.Jumps s 0

variable {host : Host} {program : List Statement} {p q : Processor} {effects : List Effect}

lemma Moves.keeps {length : Nat} {s : Statement} {outcome : Except Error Flow}
    (h : p.Moves length s q outcome) : p.stack.Keeps q.stack ∧ q.savedFrame = p.savedFrame := by
  cases h with
  | failed hk => exact ⟨hk, rfl⟩
  | worked hk => exact ⟨hk, rfl⟩
  | jumped => exact ⟨.refl _, rfl⟩
  | left => exact ⟨.refl _, rfl⟩
  | exited => exact ⟨.refl _, rfl⟩

/-- Whatever comes of a statement, its step ends on the processor that the statement left, but
for where the processor is. -/
lemma stepWith_processor (host : Host) (p : Processor) (length : Nat) (s : Statement) :
    ∃ pc phase, (p.stepWith host length s).processor =
      { (p.execute host length s).processor with pc, phase } := by
  unfold stepWith
  dsimp only
  cases (p.execute host length s).outcome with
  | error e => exact ⟨_, _, rfl⟩
  | ok flow =>
    dsimp only
    by_cases hs : 0 < (p.execute host length s).processor.spill
    · rw [if_pos hs]
      exact ⟨_, _, rfl⟩
    · rw [if_neg hs]
      cases flow <;> exact ⟨_, _, rfl⟩

theorem step_keeps (host : Host) (program : List Statement) (hp : p.stack.Framed) :
    p.stack.Keeps (p.step host program).processor.stack ∧
      (p.step host program).processor.savedFrame = p.savedFrame := by
  unfold step
  cases program[p.pc]? with
  | none => exact ⟨.refl _, rfl⟩
  | some s =>
    obtain ⟨pc, phase, he⟩ := stepWith_processor host p program.length s
    dsimp only
    rw [he]
    exact (execute_moves hp host program.length s).keeps

/-- A jump does what its number of statements says, whichever of the two jumps it is. -/
lemma apply_of_jumps {length : Nat} {s : Statement} {delta : Int64} (h : p.Jumps s delta) :
    ∃ c, s.command = .special c ∧
      c.apply p length s.arguments = SpecialCommand.jumpBy p length delta := by
  cases h with
  | jump ha =>
    refine ⟨.jump, rfl, ?_⟩
    simp only [SpecialCommand.apply, SpecialCommand.applyJump, ha]
    rfl
  | jumpIf ha hc hv =>
    refine ⟨.jumpIf, rfl, ?_⟩
    simp only [SpecialCommand.apply, SpecialCommand.applyJumpIf, ha, hc, bind, Except.bind,
      Value.asInt, hv, if_true]

lemma step_stuck (host : Host) (h : Stuck program p) : p.step host program = .on p [] := by
  obtain ⟨hspill, s, hs, hj⟩ := h
  have hpc : p.pc + (0 : Int64).toInt.toNat < program.length :=
    (List.getElem?_eq_some_iff.1 hs).1
  have hx : p.execute host program.length s = ⟨p, .ok .jumped, []⟩ := by
    obtain ⟨c, hc, ha⟩ := apply_of_jumps hj
    unfold execute
    rw [hc]
    dsimp only
    rw [ha, SpecialCommand.jumpBy_forward (by decide), if_pos hpc]
    rfl
  unfold step
  rw [hs]
  dsimp only
  unfold stepWith
  rw [hx]
  dsimp only
  rw [if_neg (by omega)]

lemma stepWith_on {length : Nat} {s : Statement} (h : p.stepWith host length s = .on q effects) :
    (p.execute host length s).processor.spill = 0 ∧ q.spill = 0 ∧
      ((p.execute host length s).outcome = .ok .next ∧
          q.pc = (p.execute host length s).processor.pc + 1 ∨
        (p.execute host length s).outcome = .ok .jumped ∧
          q.pc = (p.execute host length s).processor.pc) := by
  unfold stepWith at h
  dsimp only at h
  cases ho : (p.execute host length s).outcome with
  | error e =>
    rw [ho] at h
    cases h
  | ok flow =>
    rw [ho] at h
    dsimp only at h
    by_cases hs : 0 < (p.execute host length s).processor.spill
    · rw [if_pos hs] at h
      cases h
    · rw [if_neg hs] at h
      have hz := Nat.eq_zero_of_not_pos hs
      cases flow with
      | next =>
        cases h
        exact ⟨hz, hz, .inl ⟨rfl, rfl⟩⟩
      | jumped =>
        cases h
        exact ⟨hz, hz, .inr ⟨rfl, rfl⟩⟩

/-- A step that does not end the run goes forward, or stays at a jump over no statement. -/
theorem step_on (hp : p.stack.Framed) (h : p.step host program = .on q effects) :
    p.pc < program.length ∧ q.spill = 0 ∧ (p.pc < q.pc ∨ Stuck program p) := by
  unfold step at h
  cases hs : program[p.pc]? with
  | none =>
    rw [hs] at h
    cases h
  | some s =>
    rw [hs] at h
    obtain ⟨hspill, hq, hflow⟩ := stepWith_on h
    refine ⟨(List.getElem?_eq_some_iff.1 hs).1, hq, ?_⟩
    have hm := execute_moves hp host program.length s
    generalize p.execute host program.length s = x at hm hspill hflow
    obtain ⟨y, outcome, _⟩ := x
    cases hm with
    | failed hk e =>
      obtain ⟨he, -⟩ | ⟨he, -⟩ := hflow <;> cases he
    | left hj hd hl => cases hspill
    | worked hk =>
      obtain ⟨-, hpc⟩ | ⟨he, -⟩ := hflow
      · exact .inl (hpc ▸ Nat.lt_succ_self _)
      · cases he
    | exited =>
      obtain ⟨-, hpc⟩ | ⟨he, -⟩ := hflow
      · exact .inl (hpc ▸ Nat.lt_succ_self _)
      · cases he
    | @jumped delta hj hd hl =>
      obtain ⟨he, -⟩ | ⟨-, hpc⟩ := hflow
      · cases he
      · change q.pc = p.pc + delta.toInt.toNat at hpc
        by_cases hn : delta.toInt.toNat = 0
        · have he : delta = 0 := Int64.toInt_inj.1 (by rw [Int64.toInt_zero]; omega)
          rw [he] at hj
          exact .inr ⟨hspill, s, hs, hj⟩
        · exact .inl (by omega)

lemma step_on_keeps (hp : p.stack.Framed) (h : p.step host program = .on q effects) :
    p.stack.Keeps q.stack ∧ q.savedFrame = p.savedFrame := by
  have hk := step_keeps host program hp
  rw [h] at hk
  exact hk

/-! ### Whole runs -/

lemma runOn_ended {r : Run} (h : p.step host program = .ended r) :
    p.runOn host program = some r := by
  rw [runOn]
  unfold step at h
  cases hs : program[p.pc]? with
  | none =>
    rw [hs] at h
    cases h
    rfl
  | some s =>
    rw [hs] at h
    dsimp only at h ⊢
    rw [h]

lemma runOn_on (h : p.step host program = .on q effects) :
    p.runOn host program =
      if p.pc < q.pc then (q.runOn host program).map (Run.after effects) else none := by
  rw [runOn]
  unfold step at h
  cases hs : program[p.pc]? with
  | none =>
    rw [hs] at h
    cases h
  | some s =>
    rw [hs] at h
    dsimp only at h ⊢
    rw [h]

theorem halts_keeps {hosts : List Host} {r : Run} (hp : p.stack.Framed)
    (h : Halts program hosts p r) :
    p.stack.Keeps r.processor.stack ∧ r.processor.savedFrame = p.savedFrame := by
  induction h with
  | @ended host p r h =>
    have hk := step_keeps host program hp
    rw [h] at hk
    exact hk
  | @on host hosts p q effects r h hr ih =>
    obtain ⟨hk, hf⟩ := step_on_keeps hp h
    obtain ⟨hk', hf'⟩ := ih (hk.framed hp)
    exact ⟨hk.trans hk', hf'.trans hf⟩

lemma not_halts_of_stuck {hosts : List Host} {r : Run} (h : Halts program hosts p r) :
    ¬Stuck program p := by
  induction h with
  | ended h =>
    intro hs
    rw [step_stuck _ hs] at h
    cases h
  | on h hr ih =>
    intro hs
    rw [step_stuck _ hs] at h
    cases h
    exact ih hs

theorem runOn_eq_some_iff (hp : p.stack.Framed) {r : Run} :
    p.runOn host program = some r ↔ ∃ n, Halts program (List.replicate n host) p r := by
  constructor
  · intro h
    induction hn : program.length - p.pc using Nat.strongRecOn generalizing p r with
    | ind n ih =>
      cases hs : p.step host program with
      | ended r' =>
        rw [runOn_ended hs] at h
        cases h
        exact ⟨1, .ended hs⟩
      | on q effects =>
        rw [runOn_on hs] at h
        obtain ⟨hpc, -, -⟩ := step_on hp hs
        have hk := (step_on_keeps hp hs).1
        by_cases hq : p.pc < q.pc
        · rw [if_pos hq] at h
          obtain ⟨r', hr, rfl⟩ := Option.map_eq_some_iff.1 h
          obtain ⟨m, hm⟩ := ih (program.length - q.pc) (by omega) (hk.framed hp) hr rfl
          exact ⟨m + 1, .on hs hm⟩
        · rw [if_neg hq] at h
          cases h
  · rintro ⟨n, h⟩
    generalize hosts_eq : List.replicate n host = hosts at h
    induction h generalizing n with
    | @ended host' p r h =>
      obtain ⟨-, rfl⟩ : n = 1 ∧ host = host' := by
        cases n with
        | zero => cases hosts_eq
        | succ n =>
          cases n with
          | zero =>
            cases hosts_eq
            exact ⟨rfl, rfl⟩
          | succ n => cases hosts_eq
      exact runOn_ended h
    | @on host' hosts p q effects r h hr ih =>
      cases n with
      | zero => cases hosts_eq
      | succ n =>
        cases hosts_eq
        have hk := (step_on_keeps hp h).1
        obtain ⟨-, -, hq | hq⟩ := step_on hp h
        · rw [runOn_on h, if_pos hq, ih (hk.framed hp) n rfl]
          rfl
        · exact absurd hq (not_halts_of_stuck (.on h hr))

/-- A run does not end exactly when it comes to a jump over no statement. -/
theorem runOn_eq_none_iff (hp : p.stack.Framed) :
    p.runOn host program = none ↔ ∃ q, Reaches host program p q ∧ Stuck program q := by
  constructor
  · intro h
    induction hn : program.length - p.pc using Nat.strongRecOn generalizing p with
    | ind n ih =>
      cases hs : p.step host program with
      | ended r =>
        rw [runOn_ended hs] at h
        cases h
      | on q effects =>
        rw [runOn_on hs] at h
        obtain ⟨hpc, -, hq | hq⟩ := step_on hp hs
        · have hk := (step_on_keeps hp hs).1
          rw [if_pos hq] at h
          obtain ⟨u, hu, hstuck⟩ := ih (program.length - q.pc) (by omega) (hk.framed hp)
            (Option.map_eq_none_iff.1 h) rfl
          exact ⟨u, .on hs hu, hstuck⟩
        · exact ⟨p, .refl p, hq⟩
  · rintro ⟨q, hr, hq⟩
    induction hr with
    | refl p =>
      rw [runOn_on (step_stuck host hq), if_neg (Nat.lt_irrefl _)]
    | @on p q r effects h hr ih =>
      have hk := (step_on_keeps hp h).1
      rw [runOn_on h, ih (hk.framed hp) hq]
      by_cases hpc : p.pc < q.pc
      · rw [if_pos hpc]
        rfl
      · rw [if_neg hpc]

end Processor

end TransactionEngine
