import TransactionEngine.Proofs.Halting

/-!
# Runs with a host for each statement

The outside may answer differently at every step of a run. No statement is executed twice in a
run that ends, so a host for each statement is a host for each step, and says which answers two
programs get alike when one is a part of the other.
-/

namespace TransactionEngine.Processor

/-- Runs a program in which statement `i` asks `hosts i`; `none` when the run does not end. -/
def runBy (hosts : Nat → Host) (program : List Statement) (p : Processor) : Option Run :=
  match _h : program[p.pc]? with
  | none => some p.finish
  | some s =>
    match p.stepWith (hosts p.pc) program.length s with
    | .ended r => some r
    | .on q effects =>
      if p.pc < q.pc then (runBy hosts program q).map (Run.after effects) else none
termination_by program.length - p.pc
decreasing_by
  have := (List.getElem?_eq_some_iff.1 _h).1
  omega

def Step.after (effects : List Effect) : Step → Step
  | .ended r => .ended (r.after effects)
  | .on q more => .on q (effects ++ more)

/-- The first `n` steps of a run, or all of them if it ends before. -/
def stepsBy (hosts : Nat → Host) (program : List Statement) : Nat → Processor → Step
  | 0, p => .on p []
  | n + 1, p =>
    match p.step (hosts p.pc) program with
    | .ended r => .ended r
    | .on q effects => (stepsBy hosts program n q).after effects

variable {host : Host} {hosts : Nat → Host} {program : List Statement} {p q : Processor}
  {effects : List Effect} {r : Run}

lemma runBy_ended (h : p.step (hosts p.pc) program = .ended r) :
    p.runBy hosts program = some r := by
  rw [runBy]
  unfold step at h
  cases hs : program[p.pc]? with
  | none =>
    rw [hs] at h
    cases h
    rfl
  | some s =>
    rw [hs] at h
    dsimp only at h ⊢
    rw [h]

lemma runBy_on (h : p.step (hosts p.pc) program = .on q effects) :
    p.runBy hosts program =
      if p.pc < q.pc then (q.runBy hosts program).map (Run.after effects) else none := by
  rw [runBy]
  unfold step at h
  cases hs : program[p.pc]? with
  | none =>
    rw [hs] at h
    cases h
  | some s =>
    rw [hs] at h
    dsimp only at h ⊢
    rw [h]

lemma step_on_inside (h : p.step host program = .on q effects) :
    p.pc < program.length ∧ q.spill = 0 := by
  unfold step at h
  cases hs : program[p.pc]? with
  | none =>
    rw [hs] at h
    cases h
  | some s =>
    rw [hs] at h
    exact ⟨(List.getElem?_eq_some_iff.1 hs).1, (stepWith_on h).2.1⟩

/-- Whatever holds at the last step, and of a step if it holds further on, holds throughout. -/
lemma run_induction (hosts : Nat → Host) (program : List Statement) {motive : Processor → Prop}
    (ended : ∀ p r, p.step (hosts p.pc) program = .ended r → motive p)
    (on : ∀ p q effects, p.step (hosts p.pc) program = .on q effects →
      (p.pc < q.pc → motive q) → motive p) (p : Processor) : motive p := by
  induction hn : program.length - p.pc using Nat.strongRecOn generalizing p with
  | ind n ih =>
    cases hs : p.step (hosts p.pc) program with
    | ended r => exact ended p r hs
    | on q effects =>
      obtain ⟨hpc, -⟩ := step_on_inside hs
      exact on p q effects hs fun hq => ih (program.length - q.pc) (by omega) q rfl

/-- One host for all statements is the host of a run. -/
theorem runBy_const (host : Host) (program : List Statement) (p : Processor) :
    p.runBy (fun _ => host) program = p.runOn host program := by
  induction p using run_induction (fun _ => host) program with
  | ended p r h =>
    have hby : p.runBy (fun _ => host) program = some r := runBy_ended h
    rw [hby, runOn_ended h]
  | on p q effects h ih =>
    have hby : p.runBy (fun _ => host) program =
        if p.pc < q.pc then (q.runBy (fun _ => host) program).map (Run.after effects) else none :=
      runBy_on h
    rw [hby, runOn_on h]
    by_cases hq : p.pc < q.pc
    · rw [if_pos hq, if_pos hq, ih hq]
    · rw [if_neg hq, if_neg hq]

/-- The hosts of statements that are behind the processor are never asked. -/
lemma runBy_congr {hosts' : Nat → Host} (h : ∀ i, p.pc ≤ i → hosts i = hosts' i) :
    p.runBy hosts program = p.runBy hosts' program := by
  induction p using run_induction hosts program with
  | ended p r hs =>
    have hs' := hs
    rw [h p.pc (Nat.le_refl _)] at hs'
    rw [runBy_ended hs, runBy_ended hs']
  | on p q effects hs ih =>
    have hs' := hs
    rw [h p.pc (Nat.le_refl _)] at hs'
    rw [runBy_on hs, runBy_on hs']
    by_cases hq : p.pc < q.pc
    · rw [if_pos hq, if_pos hq, ih hq fun i hi => h i (by omega)]
    · rw [if_neg hq, if_neg hq]

/-! ### Runs that end -/

lemma stepsBy_ended (h : p.step (hosts p.pc) program = .ended r) (n : Nat) :
    stepsBy hosts program (n + 1) p = .ended r := by
  rw [stepsBy, h]

lemma stepsBy_on (h : p.step (hosts p.pc) program = .on q effects) (n : Nat) :
    stepsBy hosts program (n + 1) p = (stepsBy hosts program n q).after effects := by
  rw [stepsBy, h]

lemma stepsBy_stuck (hosts : Nat → Host) (n : Nat) (h : Stuck program p) :
    stepsBy hosts program n p = .on p [] := by
  induction n with
  | zero => rfl
  | succ n ih =>
    rw [stepsBy_on (step_stuck _ h), ih]
    rfl

lemma after_eq_ended_iff {x : Step} :
    x.after effects = .ended r ↔ ∃ u, x = .ended u ∧ u.after effects = r := by
  cases x <;> simp [Step.after]

/-- A run that is given is one that is over after some number of steps. -/
theorem runBy_eq_some_iff (hp : p.stack.Framed) :
    p.runBy hosts program = some r ↔ ∃ n, stepsBy hosts program n p = .ended r := by
  -- No step at all ends a run, so only successors count.
  rw [← Nat.or_exists_add_one, or_iff_right (by simp [stepsBy])]
  induction p using run_induction hosts program generalizing r with
  | ended p u h =>
    rw [runBy_ended h]
    simp only [stepsBy_ended h, Step.ended.injEq, exists_const, Option.some.injEq]
  | on p q effects h ih =>
    rw [runBy_on h]
    simp only [stepsBy_on h, after_eq_ended_iff]
    obtain ⟨-, -, hq | hstuck⟩ := step_on hp h
    · have hf := (step_on_keeps hp h).1.framed hp
      rw [if_pos hq, Option.map_eq_some_iff]
      constructor
      · rintro ⟨u, hu, hr⟩
        obtain ⟨n, hn⟩ := (ih hq hf).1 hu
        exact ⟨n + 1, u, hn, hr⟩
      · rintro ⟨n, u, hu, hr⟩
        cases n with
        | zero => cases hu
        | succ n => exact ⟨u, (ih hq hf).2 ⟨n, hu⟩, hr⟩
    · have hq : q = p := by
        rw [step_stuck _ hstuck] at h
        cases h
        rfl
      rw [hq, if_neg (Nat.lt_irrefl _)]
      simp [stepsBy_stuck hosts _ hstuck]

theorem runBy_eq_none_iff (hp : p.stack.Framed) :
    p.runBy hosts program = none ↔
      ∀ n, ∃ q effects, stepsBy hosts program n p = .on q effects := by
  rw [Option.eq_none_iff_forall_ne_some]
  constructor
  · intro h n
    cases hn : stepsBy hosts program n p with
    | ended r => exact absurd ((runBy_eq_some_iff hp).2 ⟨n, hn⟩) (h r)
    | on q effects => exact ⟨q, effects, rfl⟩
  · intro h r hr
    obtain ⟨n, hn⟩ := (runBy_eq_some_iff hp).1 hr
    obtain ⟨q, effects, hq⟩ := h n
    rw [hn] at hq
    cases hq

/-- The runs that end with a host for each statement are those that end with one for each step. -/
theorem exists_runBy_iff (hp : p.stack.Framed) :
    (∃ hosts, p.runBy hosts program = some r) ↔ ∃ hosts, Halts program hosts p r := by
  constructor
  · rintro ⟨hosts, hr⟩
    induction p using run_induction hosts program generalizing r with
    | ended p u h =>
      rw [runBy_ended h] at hr
      cases hr
      exact ⟨[hosts p.pc], .ended h⟩
    | on p q effects h ih =>
      rw [runBy_on h] at hr
      by_cases hq : p.pc < q.pc
      · rw [if_pos hq] at hr
        obtain ⟨u, hu, rfl⟩ := Option.map_eq_some_iff.1 hr
        obtain ⟨rest, hrest⟩ := ih hq ((step_on_keeps hp h).1.framed hp) hu
        exact ⟨hosts p.pc :: rest, .on h hrest⟩
      · rw [if_neg hq] at hr
        cases hr
  · rintro ⟨hosts, h⟩
    induction h with
    | @ended host p r h => exact ⟨fun _ => host, runBy_ended h⟩
    | @on host rest p q effects r h hr ih =>
      obtain ⟨hosts, hu⟩ := ih ((step_on_keeps hp h).1.framed hp)
      obtain ⟨-, -, hq | hstuck⟩ := step_on hp h
      · -- The run never comes back to this statement, so the host of this step can be its host.
        let own (i : Nat) : Host := if i = p.pc then host else hosts i
        have hown : p.step (own p.pc) program = .on q effects := by
          simp only [own, if_true]
          exact h
        have hrest : q.runBy own program = some r := by
          rw [← hu]
          refine runBy_congr fun i hi => ?_
          have hi' : i ≠ p.pc := by omega
          simp only [own, if_neg hi']
        exact ⟨own, by rw [runBy_on hown, if_pos hq, hrest]; rfl⟩
      · exact absurd hstuck (not_halts_of_stuck (.on h hr))

end TransactionEngine.Processor
