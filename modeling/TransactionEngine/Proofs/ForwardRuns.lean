import TransactionEngine.Proofs.StatementHosts

/-!
# Runs go forward

A processor that no jump has led out of its program executes statements at places that increase
strictly, until the program ends, a statement fails or a jump leads out. The one exception is a
jump over no statement: a run that comes to one executes it for ever.
-/

namespace TransactionEngine.Processor

/-- What can become of a processor as long as no jump leads it out of its program: it is moved by a jump
that is no statement, its frame is worked on between two runs, and it is run. -/
inductive NotLeft (program : List Statement) : Processor → Prop
  | start (stack : Stack) (context : Option Object) : NotLeft program (.start stack context)
  | moved {p : Processor} {delta : Int64} {landing : Landing} (h : NotLeft program p)
    (hl : p.landing program.length delta = .ok landing) : NotLeft program (p.move landing)
  | worked {p : Processor} {stack : Stack} (h : NotLeft program p) (hs : stack.Framed) :
    NotLeft program { p with stack }
  | run {p : Processor} {hosts : Nat → Host} {r : Run} (h : NotLeft program p)
    (hr : { p with phase := .running }.runBy hosts program = some r)
    (hn : ∀ spill value, r.outcome ≠ .ok (.jumpedOut spill value)) :
    NotLeft program r.processor

/-- The places of the statements that the first `n` steps of a run execute. -/
def visited (hosts : Nat → Host) (program : List Statement) : Nat → Processor → List Nat
  | 0, _ => []
  | n + 1, p =>
    if p.pc < program.length then
      p.pc ::
        match p.step (hosts p.pc) program with
        | .ended _ => []
        | .on q _ => visited hosts program n q
    else []

/-- A processor that is inside of its program or at its end, in a frame. -/
structure Within (program : List Statement) (p : Processor) : Prop where
  spill : p.spill = 0
  pc : p.pc ≤ program.length
  framed : p.stack.Framed

/-- A run that has executed the statements at these places ended at the end of the program, or at
the last of them if that failed or was a jump out. -/
def EndsAt (program : List Statement) (places : List Nat) (r : Run) : Prop :=
  match r.outcome with
  | .ok (.done _) => r.processor.pc = program.length
  | .ok (.jumpedOut _ _) => places.getLast? = some r.processor.pc
  | .error f => places.getLast? = some r.processor.pc ∧ f.pc = r.processor.pc ∧
      program[f.pc]?.map Statement.command = some f.command

/-- A run from `p` has executed the statements at these places, each once, and ended there. -/
structure EndsForward (program : List Statement) (p : Processor) (places : List Nat) (r : Run) :
    Prop where
  increasing : places.Pairwise (· < ·)
  inside : ∀ i ∈ places, p.pc ≤ i ∧ i < program.length
  few : places.length ≤ program.length - p.pc
  last : EndsAt program places r

variable {hosts : Nat → Host} {program : List Statement} {p q : Processor} {s : Statement}
  {effects : List Effect} {r : Run}

/-- Executing a statement goes on inside of the program or to its end, fails, or is a jump out. -/
theorem step_cases (hp : p.Within program) (hs : program[p.pc]? = some s) (host : Host) :
    (∃ q effects, p.step host program = .on q effects ∧ q.Within program) ∨
      (∃ stack e effects, stack.Framed ∧ p.step host program =
        .ended ⟨{ p with stack, phase := .failed }, .error ⟨s.command, p.pc, e⟩, effects⟩) ∨
      ∃ delta effects, p.Jumps s delta ∧ 0 ≤ delta.toInt ∧
        program.length ≤ p.pc + delta.toInt.toNat ∧
        let spill := p.pc + delta.toInt.toNat - program.length + 1
        p.step host program =
          .ended ⟨{ p with spill, phase := .jumpedOut spill },
            .ok (.jumpedOut spill p.stack.result), effects⟩ := by
  have hpc : p.pc < program.length := (List.getElem?_eq_some_iff.1 hs).1
  have hz : ¬0 < p.spill := by rw [hp.spill]; exact Nat.lt_irrefl 0
  have hm := execute_moves hp.framed host program.length s
  unfold step
  rw [hs]
  dsimp only
  unfold stepWith
  generalize p.execute host program.length s = x at hm ⊢
  obtain ⟨y, outcome, effects⟩ := x
  cases hm with
  | failed hk e => exact .inr (.inl ⟨_, e, effects, hk.framed hp.framed, rfl⟩)
  | worked hk => exact .inl ⟨_, effects, if_neg hz, hp.spill, hpc, hk.framed hp.framed⟩
  | exited => exact .inl ⟨_, effects, if_neg hz, hp.spill, hpc, hp.framed⟩
  | jumped hj hd hl =>
    exact .inl ⟨_, effects, if_neg hz, hp.spill, Nat.le_of_lt hl, hp.framed⟩
  | @left delta hj hd hl => exact .inr (.inr ⟨delta, effects, hj, hd, hl, rfl⟩)

lemma step_finish (h : program[p.pc]? = none) (host : Host) :
    p.step host program = .ended p.finish := by
  unfold step
  rw [h]

lemma visited_ended (hs : program[p.pc]? = some s) (h : p.step (hosts p.pc) program = .ended r)
    (n : Nat) : visited hosts program (n + 1) p = [p.pc] := by
  rw [visited, if_pos (List.getElem?_eq_some_iff.1 hs).1, h]

lemma visited_on (h : p.step (hosts p.pc) program = .on q effects) (n : Nat) :
    visited hosts program (n + 1) p = p.pc :: visited hosts program n q := by
  rw [visited, if_pos (step_on_inside h).1, h]

/-- There is no run exactly if it comes to a jump over no statement. -/
theorem runBy_eq_none_iff_stuck (hp : p.stack.Framed) :
    p.runBy hosts program = none ↔
      ∃ n q effects, stepsBy hosts program n p = .on q effects ∧ Stuck program q := by
  induction p using run_induction hosts program with
  | ended p r h =>
    rw [runBy_ended h]
    refine iff_of_false (Option.some_ne_none r) ?_
    rintro ⟨n, q, effects, hq, hstuck⟩
    cases n with
    | zero =>
      cases hq
      rw [step_stuck _ hstuck] at h
      cases h
    | succ n =>
      rw [stepsBy_ended h] at hq
      cases hq
  | on p q effects h ih =>
    rw [runBy_on h]
    obtain ⟨-, -, hq | hstuck⟩ := step_on hp h
    · rw [if_pos hq, Option.map_eq_none_iff, ih hq ((step_on_keeps hp h).1.framed hp)]
      constructor
      · rintro ⟨n, u, more, hu, hstuck⟩
        exact ⟨n + 1, u, effects ++ more, by rw [stepsBy_on h, hu]; rfl, hstuck⟩
      · rintro ⟨n, u, more, hu, hstuck⟩
        cases n with
        | zero =>
          -- A processor that is stuck does not go forward.
          cases hu
          rw [step_stuck _ hstuck] at h
          cases h
          exact absurd hq (Nat.lt_irrefl _)
        | succ n =>
          rw [stepsBy_on h] at hu
          cases hn : stepsBy hosts program n q with
          | ended r =>
            rw [hn] at hu
            cases hu
          | on v less =>
            rw [hn] at hu
            cases hu
            exact ⟨n, u, less, hn, hstuck⟩
    · have hq : ¬p.pc < q.pc := by
        rw [step_stuck _ hstuck] at h
        cases h
        exact Nat.lt_irrefl _
      rw [if_neg hq]
      exact iff_of_true rfl ⟨0, p, [], rfl, hstuck⟩

/-! ### Runs that end -/

lemma EndsAt.cons {places : List Nat} (h : EndsAt program places r) (i : Nat)
    (effects : List Effect) : EndsAt program (i :: places) (r.after effects) := by
  have hlast {j : Nat} (hj : places.getLast? = some j) : (i :: places).getLast? = some j := by
    rw [List.getLast?_cons, hj, Option.getD_some]
  obtain ⟨u, outcome, done⟩ := r
  match outcome with
  | .ok (.done _) => exact h
  | .ok (.jumpedOut _ _) => exact hlast h
  | .error f => exact ⟨hlast h.1, h.2⟩

lemma EndsForward.cons {places : List Nat} (h : EndsForward program q places r)
    (hpc : p.pc < program.length) (hq : p.pc < q.pc) (effects : List Effect) :
    EndsForward program p (p.pc :: places) (r.after effects) where
  increasing := List.pairwise_cons.2
    ⟨fun i hi => Nat.lt_of_lt_of_le hq (h.inside i hi).1, h.increasing⟩
  inside := by
    intro i hi
    obtain rfl | hi := List.mem_cons.1 hi
    · exact ⟨Nat.le_refl _, hpc⟩
    · have hin := h.inside i hi
      exact ⟨by omega, hin.2⟩
  few := by
    have hfew := h.few
    rw [List.length_cons]
    omega
  last := h.last.cons p.pc effects

lemma endsForward_one (hpc : p.pc < program.length) (h : EndsAt program [p.pc] r) :
    EndsForward program p [p.pc] r where
  increasing := List.pairwise_singleton _ _
  inside := by
    intro i hi
    rw [List.mem_singleton.1 hi]
    exact ⟨Nat.le_refl _, hpc⟩
  few := by
    rw [List.length_singleton]
    omega
  last := h

lemma endsForward_finish (hpc : p.pc = program.length) :
    EndsForward program p [] p.finish where
  increasing := .nil
  inside := by simp
  few := Nat.zero_le _
  last := hpc

/-- A run that ends, ends forward, after no more steps than there are statements left and one; and
unless it was led out, the processor can be run again. -/
theorem runBy_endsForward {n : Nat} (hp : p.Within program) (hn : program.length - p.pc < n)
    (h : p.runBy hosts program = some r) :
    stepsBy hosts program n p = .ended r ∧
      EndsForward program p (visited hosts program n p) r ∧
      (r.processor.Within program ∨ ∃ spill value, r.outcome = .ok (.jumpedOut spill value)) := by
  obtain ⟨n, rfl⟩ := Nat.exists_eq_add_one_of_ne_zero (Nat.ne_zero_of_lt hn)
  induction p using run_induction hosts program generalizing n r with
  | ended p u hu =>
    rw [runBy_ended hu] at h
    cases h
    refine ⟨stepsBy_ended hu n, ?_⟩
    cases hs : program[p.pc]? with
    | none =>
      have hpc : p.pc = program.length :=
        Nat.le_antisymm hp.pc (List.getElem?_eq_none_iff.1 hs)
      have hv : visited hosts program (n + 1) p = [] := by rw [visited, if_neg (by omega)]
      rw [step_finish hs] at hu
      cases hu
      rw [hv]
      exact ⟨endsForward_finish hpc, .inl ⟨hp.spill, hp.pc, hp.framed⟩⟩
    | some s =>
      have hpc : p.pc < program.length := (List.getElem?_eq_some_iff.1 hs).1
      rw [visited_ended hs hu]
      obtain ⟨q, effects, hq, -⟩ | ⟨stack, e, effects, hf, he⟩ | ⟨delta, effects, -, -, -, hl⟩ :=
        step_cases hp hs (hosts p.pc)
      · rw [hq] at hu
        cases hu
      · rw [he] at hu
        cases hu
        refine ⟨endsForward_one hpc ⟨rfl, rfl, ?_⟩, .inl ⟨hp.spill, hp.pc, hf⟩⟩
        rw [hs, Option.map_some]
      · rw [hl] at hu
        cases hu
        exact ⟨endsForward_one hpc rfl, .inr ⟨_, _, rfl⟩⟩
  | on p q effects hon ih =>
    rw [runBy_on hon] at h
    by_cases hq : p.pc < q.pc
    · rw [if_pos hq] at h
      obtain ⟨u, hu, rfl⟩ := Option.map_eq_some_iff.1 h
      have hpc : p.pc < program.length := (step_on_inside hon).1
      have hwithin : q.Within program := by
        obtain ⟨q', effects', hq', hw⟩ | ⟨_, _, _, _, he⟩ | ⟨_, _, _, _, _, hl⟩ :=
          step_cases hp (List.getElem?_eq_getElem hpc) (hosts p.pc)
        · rw [hq'] at hon
          cases hon
          exact hw
        · rw [he] at hon
          cases hon
        · rw [hl] at hon
          cases hon
      cases n with
      | zero => omega
      | succ n =>
        have hle := hwithin.pc
        obtain ⟨hsteps, hends, hagain⟩ := ih hq hwithin hu n (by omega)
        rw [stepsBy_on hon, visited_on hon, hsteps]
        exact ⟨rfl, hends.cons hpc hq effects, hagain⟩
    · rw [if_neg hq] at h
      cases h

lemma lt_of_landing {length target : Nat} {delta : Int64}
    (h : p.landing length delta = .ok (.inside target)) : target < length := by
  obtain ⟨t, ht, hlt⟩ | ⟨spill, hs, -⟩ := landing_cases h
  · cases ht
    exact hlt
  · cases hs

theorem NotLeft.within (h : NotLeft program p) : p.Within program := by
  induction h with
  | start stack context => exact ⟨rfl, Nat.zero_le _, Stack.framed_startFrame stack⟩
  | @moved p delta place h hl ih =>
    cases place with
    | outside spill => exact ih
    | inside target => exact ⟨ih.spill, Nat.le_of_lt (lt_of_landing hl), ih.framed⟩
  | worked h hs ih => exact ⟨ih.spill, ih.pc, hs⟩
  | @run p hosts r h hr hn ih =>
    obtain ⟨-, -, hw | ⟨spill, value, ho⟩⟩ :=
      runBy_endsForward (p := { p with phase := .running }) ⟨ih.spill, ih.pc, ih.framed⟩
        (Nat.lt_succ_self _) hr
    · exact hw
    · exact absurd ho (hn spill value)

/-- A run never ends exactly if it comes to a jump over no statement. Every other run executes
statements at places that increase strictly, and so at most as many as there are from where it
starts; it ends at the end of the program, or where the statement is that failed or led out. -/
theorem diverges_or_ends_forward (h : NotLeft program p) (hosts : Nat → Host) :
    let q : Processor := { p with phase := .running }
    let n := program.length - p.pc + 1
    (∀ host, p.run host program = q.runBy (fun _ => host) program) ∧
      (q.runBy hosts program = none ↔
        ∀ n, ∃ u effects, stepsBy hosts program n q = .on u effects) ∧
      (q.runBy hosts program = none ↔
        ∃ n u effects, stepsBy hosts program n q = .on u effects ∧ Stuck program u) ∧
      ∀ r, q.runBy hosts program = some r →
        stepsBy hosts program n q = .ended r ∧
          EndsForward program q (visited hosts program n q) r := by
  intro q n
  have hq : q.Within program := ⟨h.within.spill, h.within.pc, h.within.framed⟩
  refine ⟨fun host => (runBy_const host program q).symm, runBy_eq_none_iff hq.framed,
    runBy_eq_none_iff_stuck hq.framed, ?_⟩
  intro r hr
  obtain ⟨hsteps, hends, -⟩ := runBy_endsForward hq (Nat.lt_succ_self _) hr
  exact ⟨hsteps, hends⟩

/-- A processor that was moved to a statement which failed, and from there to the next one, is led
out by the statement after it. -/
theorem diverges_or_ends_forward_led_out :
    let stack : Stack := ⟨[.int 7], 1, 4, 4⟩
    let program : List Statement :=
      [⟨.special .exit, []⟩, ⟨.regular .not, []⟩,
        ⟨.special .push, [.direct (.int 1), .direct (.int 2)]⟩,
        ⟨.special .jumpIf, [.direct (.bool true), .position (-1)]⟩]
    let hosts (_ : Nat) : Host := .silent
    let p : Processor := ⟨stack, none, 0, 2, 0, false, .failed⟩
    let q : Processor := { p with phase := .running }
    NotLeft program p ∧
      (¬∃ n u effects, stepsBy hosts program n q = .on u effects ∧ Stuck program u) ∧
      ∃ r, q.runBy hosts program = some r ∧ p.run .silent program = some r ∧
        stepsBy hosts program 3 q = .ended r ∧ EndsForward program q [2, 3] r ∧
        r.outcome = .ok (.jumpedOut 2 (some (.int 2))) := by
  intro stack program hosts p q
  have hlands (pc : Nat) (phase : Phase) (hl : pc < 2) : Processor.landing
      ⟨stack, none, 0, pc, 0, false, phase⟩ program.length 1 = .ok (.inside (pc + 1)) :=
    if_pos (Nat.lt_of_lt_of_le (Nat.succ_lt_succ hl) (by decide))
  have hfresh : NotLeft program ⟨stack, none, 0, 0, 0, false, .ready⟩ :=
    .start ⟨[.int 7], 0, 4, 4⟩ none
  have hmoved : NotLeft program ⟨stack, none, 0, 1, 0, false, .ready⟩ :=
    .moved hfresh (hlands 0 .ready (by decide))
  have hfails : step (hosts 1) program ⟨stack, none, 0, 1, 0, false, .running⟩ = .ended _ := rfl
  have hfailed : NotLeft program ⟨stack, none, 0, 1, 0, false, .failed⟩ :=
    .run hmoved (@runBy_ended hosts program _ _ hfails) (by simp)
  have h : NotLeft program p := .moved hfailed (hlands 1 .failed (by decide))
  obtain ⟨hrun, -, hstuck, hends⟩ := diverges_or_ends_forward h hosts
  obtain ⟨r, hled, hout⟩ : ∃ r, stepsBy hosts program 2 q = .ended r ∧
      r.outcome = .ok (.jumpedOut 2 (some (.int 2))) := ⟨_, rfl, rfl⟩
  have hr : q.runBy hosts program = some r :=
    (runBy_eq_some_iff (p := q) h.within.framed).2 ⟨2, hled⟩
  obtain ⟨hsteps, hforward⟩ := hends r hr
  refine ⟨h, ?_, r, hr, (hrun .silent).trans hr, hsteps, hforward, hout⟩
  rw [← hstuck, hr]
  exact Option.some_ne_none r

end TransactionEngine.Processor
