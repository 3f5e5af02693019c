import TransactionEngine.Proofs.ForwardRuns
import TransactionEngine.Proofs.NestedFrames
import TransactionEngine.Proofs.StatementsInPlace

/-!
# Checks that never fail

Whatever a processor goes through from its start to its end, its frame lies above the frame that is
restored in the end, the top is not below the frame, and the processor is at a statement or at the
end of its program. So long as memory holds the stack and the program, no check fails then that is
not meant to: not in a statement, not at the end of a run, and not when the processor is closed.
-/

namespace TransactionEngine.Processor

/-- Whatever a processor can be while its program is used with it: a run begins, takes a step or ends;
between steps it is moved by a jump that is no statement, or told to leave its program or to ask for
the end, or another one is started on top of it, used and closed. -/
inductive Passes : List Statement → Processor → Processor → Prop
  | refl (program : List Statement) (p : Processor) : Passes program p p
  | begun {program : List Statement} {p q : Processor} (h : Passes program p q) :
    Passes program p { q with phase := .running }
  | step {program : List Statement} {p q : Processor} (h : Passes program p q) (host : Host) :
    Passes program p (q.step host program).processor
  | moved {program : List Statement} {p q : Processor} {delta : Int64} {landing : Landing}
    (h : Passes program p q) (hl : q.landing program.length delta = .ok landing) :
    Passes program p (q.move landing)
  | told {program : List Statement} {p q : Processor} (h : Passes program p q) (spill : Nat)
    (exitRequested : Bool) : Passes program p { q with spill, exitRequested }
  | other {program inner : List Statement} {context : Option Object} {p q u : Processor}
    (h : Passes program p q) (hu : Passes inner (.start q.stack context) u) :
    Passes program p { q with stack := u.close }

variable {program : List Statement} {p q : Processor} {s : Stack}

lemma Passes.halts {hosts : List Host} {u : Processor} {r : Run} (h : Passes program p u)
    (hr : Halts program hosts u r) : Passes program p r.processor := by
  induction hr with
  | @ended host u r hr =>
    have hs := h.step host
    rw [hr] at hs
    exact hs
  | @on host hosts u v effects r hu hr ih =>
    have hs := h.step host
    rw [hu] at hs
    exact ih hs

/-- What can become of a processor by whole runs is something that it passes through. -/
theorem Uses.passes (h : Uses program p q) : Passes program p q := by
  induction h with
  | unused program p => exact .refl program p
  | run h hr ih => exact ih.begun.halts hr
  | other h hu ih ihu => exact ih.other ihu

/-- What holds of a processor in any state that it comes to from the state `p`. -/
structure Stays (program : List Statement) (p q : Processor) : Prop where
  keeps : p.stack.Keeps q.stack
  savedFrame : q.savedFrame = p.savedFrame
  pc : q.pc ≤ program.length

/-- A step goes to the next statement after one that was no jump inside. -/
lemma stepWith_pc (host : Host) (p : Processor) (length : Nat) (s : Statement) :
    (p.stepWith host length s).processor.pc = (p.execute host length s).processor.pc ∨
      (p.execute host length s).outcome = .ok .next ∧
        (p.stepWith host length s).processor.pc =
          (p.execute host length s).processor.pc + 1 := by
  unfold stepWith
  dsimp only
  cases (p.execute host length s).outcome with
  | error e => exact .inl rfl
  | ok flow =>
    dsimp only
    by_cases hs : 0 < (p.execute host length s).processor.spill
    · rw [if_pos hs]
      exact .inl rfl
    · rw [if_neg hs]
      cases flow with
      | next => exact .inr ⟨rfl, rfl⟩
      | jumped => exact .inl rfl

lemma Moves.pc {length : Nat} {s : Statement} {outcome : Except Error Flow}
    (h : p.Moves length s q outcome) :
    q.pc = p.pc ∨ outcome = .ok .jumped ∧ q.pc < length := by
  cases h with
  | failed | worked | left | exited => exact .inl rfl
  | jumped _ _ hl => exact .inr ⟨rfl, hl⟩

lemma step_pc_le (hp : p.stack.Framed) (hpc : p.pc ≤ program.length) (host : Host) :
    (p.step host program).processor.pc ≤ program.length := by
  unfold step
  cases hs : program[p.pc]? with
  | none => exact hpc
  | some s =>
    have hlt : p.pc < program.length := (List.getElem?_eq_some_iff.1 hs).1
    have hm := (execute_moves hp host program.length s).pc
    dsimp only
    obtain hx | ⟨ho, hx⟩ := stepWith_pc host p program.length s
    · omega
    · rw [ho] at hm
      obtain hm | ⟨hj, -⟩ := hm
      · omega
      · cases hj

theorem Passes.stays (h : Passes program p q) (hp : p.stack.Framed)
    (hpc : p.pc ≤ program.length) : Stays program p q := by
  induction h with
  | refl program p => exact ⟨.refl _, rfl, hpc⟩
  | begun h ih =>
    obtain ⟨hk, hf, hpc⟩ := ih hp hpc
    exact ⟨hk, hf, hpc⟩
  | told h spill exitRequested ih =>
    obtain ⟨hk, hf, hpc⟩ := ih hp hpc
    exact ⟨hk, hf, hpc⟩
  | step h host ih =>
    obtain ⟨hk, hf, hpc⟩ := ih hp hpc
    obtain ⟨hk', hf'⟩ := step_keeps host _ (hk.framed hp)
    exact ⟨hk.trans hk', hf'.trans hf, step_pc_le (hk.framed hp) hpc host⟩
  | @moved program p q delta landing h hl ih =>
    obtain ⟨hk, hf, hpc⟩ := ih hp hpc
    cases landing with
    | inside target => exact ⟨hk, hf, Nat.le_of_lt (lt_of_landing hl)⟩
    | outside spill => exact ⟨hk, hf, hpc⟩
  | @other program inner context p q u h hu ih ihu =>
    obtain ⟨hk, hf, hpc⟩ := ih hp hpc
    -- The other processor was at the start of its own program, in a frame of its own.
    obtain ⟨hku, hfu, -⟩ := ihu (Stack.framed_startFrame q.stack) (Nat.zero_le _)
    exact ⟨hk.trans (keeps_close (hk.framed hp) hfu hku), hf, hpc⟩

/-- The topmost value of the frame, if its length is not zero; the length has to be a number. -/
def resultInPlace (p : Processor) : Except Fault (Option Value) :=
  if p.stack.top < p.stack.frame then .error .frameAboveTop
  else if 0 < p.stack.top - p.stack.frame then .ok p.stack.peek
  else .ok none

/-- One step of a run. -/
def stepInPlace (host : Host) (program : List Statement) (p : Processor) : Except Fault Step :=
  match program[p.pc]? with
  | none => do
    let value ← p.resultInPlace
    pure (.ended ⟨{ p with phase := .done }, .ok (.done value), []⟩)
  | some s =>
    match Steps.statement host program.length s p.begun with
    | .error (.broken fault) _ => .error fault
    | .error (.failed e) ⟨q, _, effects⟩ =>
      .ok (.ended ⟨{ q with phase := .failed }, .error ⟨s.command, q.pc, e⟩, effects⟩)
    | .ok _ ⟨q, jumped, effects⟩ =>
      if 0 < q.spill then do
        let value ← q.resultInPlace
        pure (.ended ⟨{ q with phase := .jumpedOut q.spill }, .ok (.jumpedOut q.spill value),
          effects⟩)
      else if jumped then .ok (.on q effects)
      else .ok (.on { q with pc := q.pc + 1 } effects)

/-- The stack without the processor's frame. -/
def closeInPlace (p : Processor) : Except Fault Stack :=
  if p.stack.top < p.stack.frame then .error .frameAboveTop
  else match p.stack.restoreFrame p.savedFrame with
    | .ok stack => .ok stack
    | .error _ => .error .frameNotRestored

lemma resultInPlace_eq (hp : p.stack.Framed) : p.resultInPlace = .ok p.stack.result := by
  unfold resultInPlace Stack.result Stack.frameLength
  rw [if_neg (Nat.not_lt.2 hp)]
  by_cases h : 0 < p.stack.top - p.stack.frame
  · rw [if_pos h, if_pos h]
  · rw [if_neg h, if_neg h]

lemma stepInPlace_eq (hp : p.Sound program.length) (host : Host) :
    p.stepInPlace host program = .ok (p.step host program) := by
  unfold stepInPlace step
  cases program[p.pc]? with
  | none =>
    dsimp only
    rw [resultInPlace_eq hp.framed]
    rfl
  | some s =>
    have hk := (execute_moves hp.framed host program.length s).keeps.1
    dsimp only
    rw [Steps.statement_eq hp]
    unfold stepWith
    generalize p.execute host program.length s = x at hk ⊢
    obtain ⟨q, outcome, effects⟩ := x
    cases outcome with
    | error e => rfl
    | ok flow =>
      dsimp only [Executed.settled]
      by_cases hs : 0 < q.spill
      · rw [if_pos hs, if_pos hs, resultInPlace_eq (hk.framed hp.framed)]
        rfl
      · rw [if_neg hs, if_neg hs]
        cases flow with
        | next => rfl
        | jumped => rfl

/-! ### No check fails -/

/-- No check fails on a processor that is not meant to. The slot that a position was resolved to is
found again by its number, to be read or to be written. -/
structure Checked (program : List Statement) (p : Processor) : Prop where
  framed : p.stack.frame ≤ p.stack.top
  found (position : Int64) (index : Nat) (hi : p.resolveIndex position = .ok index) :
    ∃ v, p.stack.get? index = some v ∧ p.stack.valueAt (Int64.ofNat index) = .ok v ∧
      ∀ w, p.stack.setAt (Int64.ofNat index) w = .ok (p.stack.set index w)
  kept (host : Host) (c : RegularCommand) (run : List Value) (kept : Nat) (w : Workbench)
    (hw : c.inPlace host ⟨run, []⟩ = .ok kept w) : kept ≤ run.length ∧ w.run.length = run.length
  jump (delta : Int64) :
    Steps.jump program.length delta p.begun = p.landed (p.landing program.length delta)
  statement (host : Host) (s : Statement) :
    Steps.statement host program.length s p.begun = (p.execute host program.length s).settled
  unbroken (host : Host) (s : Statement) (fault : Fault) (u : Underway) :
    Steps.statement host program.length s p.begun ≠ .error (.broken fault) u
  step (host : Host) : p.stepInPlace host program = .ok (p.step host program)
  close : p.closeInPlace = .ok p.close

lemma Sound.found {length : Nat} {position : Int64} {index : Nat} (hp : p.Sound length)
    (hi : p.resolveIndex position = .ok index) :
    ∃ v, p.stack.get? index = some v ∧ p.stack.valueAt (Int64.ofNat index) = .ok v ∧
      ∀ w, p.stack.setAt (Int64.ofNat index) w = .ok (p.stack.set index w) := by
  have ht := (resolveIndex_eq_ok_iff.1 hi).2.2
  have hagain : p.stack.indexOf (Int64.ofNat index) = .ok index := by
    rw [← Stack.indexInWord_eq, Stack.indexInWord_ofNat hp.stack ht]
  obtain ⟨v, hv⟩ := get?_of_index hi
  refine ⟨v, hv, ?_, fun w => ?_⟩
  · simp only [Stack.valueAt, hagain, bind, Except.bind, hv]
    rfl
  · unfold Stack.setAt
    rw [hagain]
    rfl

lemma settled_ne_broken (x : Executed) (fault : Fault) (u : Underway) :
    x.settled ≠ .error (.broken fault) u := by
  obtain ⟨q, outcome, effects⟩ := x
  cases outcome <;> nofun

/-- No check of a processor fails that is not meant to, whatever the processor has gone through
since it was started on a stack, and whatever comes next, as long as memory holds the stack and the
program. -/
theorem checks_never_fail {context : Option Object} (hs : s.frame ≤ s.top)
    (hprogram : program.length ≤ greatestLength) (h : Passes program (.start s context) p)
    (hm : p.stack.top ≤ greatestLength) : Checked program p := by
  have hstart : s.startFrame.2.Framed := Stack.framed_startFrame s
  obtain ⟨hk, hf, hpc⟩ := h.stays hstart (Nat.zero_le _)
  have hp : p.Sound program.length := ⟨hk.framed hstart, hm, hpc, hprogram⟩
  refine ⟨hp.framed, fun _ _ => hp.found, fun _ _ _ _ _ => RegularCommand.kept_le,
    Steps.jump_eq hp, Steps.statement_eq hp, ?_, stepInPlace_eq hp, ?_⟩
  · intro host s fault u
    rw [Steps.statement_eq hp]
    exact settled_ne_broken _ fault u
  · have hr := Stack.restoreFrame_of_keeps hs hk
    have hsaved : p.savedFrame = s.frame := hf
    unfold closeInPlace
    rw [if_neg (Nat.not_lt.2 hp.framed), close_of_keeps hs hf hk, hsaved, hr]

/-- The last statement jumps as far as a jump can. -/
theorem checks_never_fail_far_out :
    let s : Stack := ⟨[.int 7], 0, 4, 4⟩
    let program : List Statement :=
      [⟨.special .push, []⟩, ⟨.special .jump, [.direct (.int Int64.maxValue)]⟩]
    let p : Processor := ⟨⟨[.int 7, .nil], 1, 4, 4⟩, none, 0, 1, 0, false, .running⟩
    let spill := 2 ^ 63 - 1
    s.frame ≤ s.top ∧ program.length ≤ greatestLength ∧ Passes program (.start s none) p ∧
      p.stack.top ≤ greatestLength ∧ Checked program p ∧
      p.stepInPlace .silent program =
        .ok (.ended ⟨{ p with spill, phase := .jumpedOut spill },
          .ok (.jumpedOut spill (some .nil)), []⟩) ∧
      ∃ stack, p.closeInPlace = .ok stack ∧ stack.slots = s.slots := by
  intro s program p spill
  have hpushed : step .silent program { Processor.start s none with phase := .running } =
    .on p [] := rfl
  have hpasses : Passes program (.start s none) p := by
    have h := (Passes.refl program (.start s none)).begun.step .silent
    rw [hpushed] at h
    exact h
  have hjumped : p.step .silent program =
      .ended ⟨{ p with spill, phase := .jumpedOut spill },
        .ok (.jumpedOut spill (some .nil)), []⟩ := rfl
  have h : Checked program p := checks_never_fail (by decide) (by decide) hpasses (by decide)
  refine ⟨by decide, by decide, hpasses, by decide, h, ?_, p.close, h.close, rfl⟩
  rw [h.step, hjumped]

end TransactionEngine.Processor
