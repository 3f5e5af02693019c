import TransactionEngine.Proofs.Halting

/-!
# Processors on processors

A processor may be run many times, and between its runs others may be started on top of it, used
and closed. Whatever happens until it is closed, closing it gives back the stack on which it was
started.
-/

namespace TransactionEngine.Processor

/-- What can become of a processor, with its program, until it is closed: it is run and halts, and
others are started on top of it, used and closed. -/
inductive Uses : List Statement → Processor → Processor → Prop
  | unused (program : List Statement) (p : Processor) : Uses program p p
  | run {program : List Statement} {hosts : List Host} {p q : Processor} {r : Run}
    (h : Uses program p q) (hr : Halts program hosts { q with phase := .running } r) :
    Uses program p r.processor
  | other {program inner : List Statement} {context : Option Object} {p q u : Processor}
    (h : Uses program p q) (hu : Uses inner (.start q.stack context) u) :
    Uses program p { q with stack := u.close }

lemma close_of_keeps {s : Stack} {p : Processor} (hs : s.Framed) (hf : p.savedFrame = s.frame)
    (hk : s.startFrame.2.Keeps p.stack) :
    p.close = { s with capacity := Stack.halved s.minCapacity s.top p.stack.capacity } := by
  unfold close
  rw [hf, Stack.restoreFrame_of_keeps hs hk]

/-- A processor that was used and closed leaves nothing but room behind. -/
lemma keeps_close {s : Stack} {p : Processor} (hs : s.Framed) (hf : p.savedFrame = s.frame)
    (hk : s.startFrame.2.Keeps p.stack) : s.Keeps p.close := by
  rw [close_of_keeps hs hf hk]
  exact hk.fitted

lemma Uses.of_run {host : Host} {program : List Statement} {p q : Processor} {r : Run}
    (h : Uses program p q) (hq : q.stack.Framed) (hr : q.run host program = some r) :
    Uses program p r.processor := by
  obtain ⟨n, hn⟩ := (runOn_eq_some_iff (p := { q with phase := .running }) hq).1 hr
  exact .run h hn

theorem uses_keeps {program : List Statement} {p q : Processor} (h : Uses program p q)
    (hp : p.stack.Framed) : p.stack.Keeps q.stack ∧ q.savedFrame = p.savedFrame := by
  induction h with
  | unused => exact ⟨.refl _, rfl⟩
  | @run program hosts p q r h hr ih =>
    obtain ⟨hk, hf⟩ := ih hp
    obtain ⟨hk', hf'⟩ := halts_keeps (p := { q with phase := .running }) (hk.framed hp) hr
    exact ⟨hk.trans hk', hf'.trans hf⟩
  | @other program inner context p q u h hu ih ihu =>
    obtain ⟨hk, hf⟩ := ih hp
    obtain ⟨hku, hfu⟩ := ihu (Stack.framed_startFrame q.stack)
    exact ⟨hk.trans (keeps_close (hk.framed hp) hfu hku), hf⟩

/-- A closed processor leaves the stack on which it was started, slot by slot. -/
theorem close_restores_stack {s : Stack} {program : List Statement} {context : Option Object}
    {p : Processor} (hs : s.frame ≤ s.top) (h : Uses program (.start s context) p) :
    p.close.slots = s.slots ∧ p.close.top = s.top ∧ p.close.frame = s.frame := by
  obtain ⟨hk, hf⟩ := uses_keeps h (Stack.framed_startFrame s)
  rw [close_of_keeps hs hf hk]
  exact ⟨rfl, rfl, rfl⟩

/-- A program that overwrites its own slot and then fails, is used again after another one on top
of it has jumped out, and fails again. -/
theorem close_restores_stack_after_failures :
    let s : Stack := ⟨[.int 7, .int 8], 1, 4, 4⟩
    let program : List Statement :=
      [⟨.special .push, []⟩, ⟨.special .store, [.direct (.int 9), .position (-1)]⟩,
        ⟨.regular .not, []⟩]
    ∃ p, s.frame ≤ s.top ∧ Uses program (.start s none) p ∧
      p.close.slots = s.slots ∧ p.close.top = s.top ∧ p.close.frame = s.frame := by
  intro s program
  let inner : List Statement := [⟨.special .push, []⟩, ⟨.special .jump, [.direct (.int 5)]⟩]
  let p (slots : List Value) (pc : Nat) (phase : Phase) : Processor :=
    ⟨⟨slots, 2, 4, 4⟩, none, 1, pc, 0, false, phase⟩
  let u (pc spill : Nat) (phase : Phase) : Processor :=
    ⟨⟨[.int 7, .int 8, .int 9, .nil], 3, 4, 4⟩, none, 2, pc, spill, false, phase⟩
  let failed : Run :=
    ⟨p [.int 7, .int 8, .int 9] 2 .failed, .error ⟨.regular .not, 2, .wrongKind .bool .int⟩, []⟩
  let left : Run := ⟨u 1 5 (.jumpedOut 5), .ok (.jumpedOut 5 (some .nil)), []⟩
  have hs : s.frame ≤ s.top := by decide
  have fails : Halts program [.silent, .silent, .silent]
      { Processor.start s none with phase := .running } ((failed.after []).after []) :=
    .on (q := p [.int 7, .int 8, .nil] 1 .running) rfl
      (.on (q := p [.int 7, .int 8, .int 9] 2 .running) rfl (.ended rfl))
  have leaves : Halts inner [.silent, .silent]
      { Processor.start failed.processor.stack none with phase := .running } (left.after []) :=
    .on (q := u 1 0 .running) rfl (.ended rfl)
  have first : Uses program (.start s none) failed.processor := .run (.unused _ _) fails
  have other : Uses inner (.start failed.processor.stack none) left.processor :=
    .run (.unused _ _) leaves
  have again := Uses.run (.other first other) (.ended (rfl : step .silent program _ = .ended _))
  exact ⟨_, hs, again, close_restores_stack hs again⟩

end TransactionEngine.Processor
