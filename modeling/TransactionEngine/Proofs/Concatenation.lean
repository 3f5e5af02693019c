import TransactionEngine.Proofs.StatementHosts

/-!
# Programs behind programs

A run of `P ++ Q` begins as a run of `P`. A run of `P` that fails is all of it. One that ends, or
jumps out no farther than the end of `Q`, goes on in `Q` on the frame that is left, and a jump
that leads farther still jumps out, so much less far as `Q` is long.
-/

namespace TransactionEngine

namespace Processor

/-- A processor that shows no more than its stack and its context. -/
def blank (p : Processor) : Processor :=
  ⟨p.stack, p.context, 0, 0, 0, false, .ready⟩

/-- The processor with what another one did in its place. -/
def adopt (p q : Processor) : Processor :=
  { p with stack := q.stack, exitRequested := q.exitRequested || p.exitRequested }

end Processor

def Executed.onto (x : Executed) (p : Processor) : Executed :=
  { x with processor := p.adopt x.processor }

namespace SpecialCommand

variable {p : Processor}

/-- What a special command gives on a blank processor, on the processor itself. -/
def adopted (p : Processor) (x : Except Error (Processor × Flow)) :
    Except Error (Processor × Flow) :=
  x.map fun y => (p.adopt y.1, y.2)

lemma onStack_blank (p : Processor) (stack : Except Error Stack) :
    onStack p stack = adopted p (onStack p.blank stack) := by
  cases stack <;> rfl

lemma applyPush_blank (p : Processor) (arguments : List Argument) :
    applyPush p arguments = adopted p (applyPush p.blank arguments) := by
  cases arguments with
  | nil => exact onStack_blank p _
  | cons first values =>
    have hc : count push p.blank first = count push p first := rfl
    have hr : p.blank.resolveAll values = p.resolveAll values := rfl
    unfold applyPush
    dsimp only
    rw [hc, hr]
    cases count push p first with
    | error e => rfl
    | ok n =>
      change (if values.isEmpty then _ else _) = adopted p (if values.isEmpty then _ else _)
      by_cases hv : values.isEmpty
      · rw [if_pos hv, if_pos hv]
        exact onStack_blank p _
      · rw [if_neg hv, if_neg hv]
        by_cases hn : values.length ≠ n
        · rw [if_pos hn, if_pos hn]
          rfl
        · rw [if_neg hn, if_neg hn]
          cases p.resolveAll values with
          | error e => rfl
          | ok vs => exact onStack_blank p _

lemma applyPop_blank (p : Processor) (arguments : List Argument) :
    applyPop p arguments = adopted p (applyPop p.blank arguments) := by
  match arguments with
  | [] => exact onStack_blank p _
  | [a] =>
    have hc : count pop p.blank a = count pop p a := rfl
    unfold applyPop
    dsimp only
    rw [hc]
    cases count pop p a with
    | error e => rfl
    | ok n => exact onStack_blank p _
  | _ :: _ :: _ => rfl

lemma applyStore_blank (p : Processor) (arguments : List Argument) :
    applyStore p arguments = adopted p (applyStore p.blank arguments) := by
  match arguments with
  | [source, .position target] =>
    have hs : p.blank.resolve source = p.resolve source := rfl
    have ht : p.blank.resolveIndex target = p.resolveIndex target := rfl
    unfold applyStore
    dsimp only
    rw [hs, ht]
    cases p.resolve source with
    | error e => rfl
    | ok v => cases p.resolveIndex target <;> rfl
  | [_, .direct _] => rfl
  | [] => rfl
  | [_] => rfl
  | _ :: _ :: _ :: _ => simp [applyStore, adopted, Except.map]

lemma applyJump_blank {length : Nat} {arguments : List Argument}
    (h : ∀ delta, ¬p.Jumps ⟨.special .jump, arguments⟩ delta) :
    applyJump p length arguments = adopted p (applyJump p.blank 0 arguments) := by
  match arguments with
  | [a] =>
    have hr : p.blank.resolve a = p.resolve a := rfl
    unfold applyJump
    dsimp only
    rw [hr]
    cases ha : p.resolve a with
    | error e => rfl
    | ok v =>
      cases hv : v.asInt with
      | error e =>
        change (v.asInt >>= fun _ => _) = adopted p (v.asInt >>= fun _ => _)
        rw [hv]
        rfl
      | ok delta =>
        rw [Value.eq_int_of_asInt hv] at ha
        exact absurd (.jump ha) (h delta)
  | [] => rfl
  | _ :: _ :: _ => rfl

lemma applyJumpIf_blank {length : Nat} {arguments : List Argument}
    (h : ∀ delta, ¬p.Jumps ⟨.special .jumpIf, arguments⟩ delta) :
    applyJumpIf p length arguments = adopted p (applyJumpIf p.blank 0 arguments) := by
  match arguments with
  | [condition, a] =>
    have hr (b : Argument) : p.blank.resolve b = p.resolve b := rfl
    unfold applyJumpIf
    dsimp only
    rw [hr, hr]
    cases ha : p.resolve a with
    | error e => rfl
    | ok v =>
      change (v.asInt >>= fun _ => _) = adopted p (v.asInt >>= fun _ => _)
      cases hv : v.asInt with
      | error e => rfl
      | ok delta =>
        rw [Value.eq_int_of_asInt hv] at ha
        cases hc : p.resolve condition with
        | error e => rfl
        | ok w =>
          change (w.truthy >>= fun _ => _) = adopted p (w.truthy >>= fun _ => _)
          cases hw : w.truthy with
          | error e => rfl
          | ok holds =>
            cases holds with
            | true => exact absurd (.jumpIf ha hc hw) (h delta)
            | false => rfl
  | [] => rfl
  | [_] => rfl
  | _ :: _ :: _ :: _ => rfl

theorem apply_blank {c : SpecialCommand} {length : Nat} {arguments : List Argument}
    (h : ∀ delta, ¬p.Jumps ⟨.special c, arguments⟩ delta) :
    c.apply p length arguments = adopted p (c.apply p.blank 0 arguments) := by
  cases c with
  | context =>
    cases arguments with
    | nil => exact onStack_blank p _
    | cons => rfl
  | exit => cases arguments <;> rfl
  | jump => exact applyJump_blank h
  | jumpIf => exact applyJumpIf_blank h
  | pop => exact applyPop_blank p arguments
  | push => exact applyPush_blank p arguments
  | store => exact applyStore_blank p arguments

end SpecialCommand

namespace Processor

variable {host : Host} {p : Processor}

lemma applyFrom_blank (host : Host) (p : Processor) (c : RegularCommand) (start : Nat) :
    p.applyFrom host c start = (p.blank.applyFrom host c start).onto p := by
  have hs : p.blank.stack = p.stack := rfl
  unfold applyFrom
  rw [hs]
  cases p.stack.slotsFrom start with
  | error e => rfl
  | ok run =>
    dsimp only
    cases c.apply host run with
    | failed e run effects => rfl
    | done results effects =>
      dsimp only
      cases (p.stack.overwriteFrom start results).pop (run.length - results.length) <;> rfl

lemma applyRegular_blank (host : Host) (p : Processor) (c : RegularCommand)
    (arguments : List Argument) :
    p.applyRegular host c arguments = (p.blank.applyRegular host c arguments).onto p := by
  have hs : p.blank.stack = p.stack := rfl
  have hr : p.blank.resolveAll arguments = p.resolveAll arguments := rfl
  unfold applyRegular
  rw [hs, hr]
  by_cases ha : arguments.isEmpty
  · rw [if_pos ha, if_pos ha]
    exact applyFrom_blank host p c _
  · rw [if_neg ha, if_neg ha]
    cases p.resolveAll arguments with
    | error e => rfl
    | ok values =>
      dsimp only
      cases p.stack.pushValues values with
      | error e => rfl
      | ok stack => exact applyFrom_blank host { p with stack } c _

/-- A statement that does not jump does the same wherever it stands. -/
theorem execute_of_not_jumps (host : Host) (length : Nat) {s : Statement}
    (h : ∀ delta, ¬p.Jumps s delta) :
    p.execute host length s = (p.blank.execute host 0 s).onto p := by
  obtain ⟨c, arguments⟩ := s
  cases c with
  | regular c => exact applyRegular_blank host p c arguments
  | special c =>
    unfold execute
    dsimp only
    rw [SpecialCommand.apply_blank h]
    cases c.apply p.blank 0 arguments <;> rfl

lemma stepWith_of_not_jumps (host : Host) {s : Statement} (h : ∀ delta, ¬p.Jumps s delta)
    (length length' : Nat) : p.stepWith host length s = p.stepWith host length' s := by
  unfold stepWith
  rw [execute_of_not_jumps host length h, execute_of_not_jumps host length' h]

/-- The end of a run at a jump that leaves the program. -/
def leave (p : Processor) (spill : Nat) : Run :=
  ⟨{ p with spill, phase := .jumpedOut spill }, .ok (.jumpedOut spill p.stack.result), []⟩

lemma execute_of_jumps (host : Host) (length : Nat) {s : Statement} {delta : Int64}
    (h : p.Jumps s delta) :
    p.execute host length s =
      match SpecialCommand.jumpBy p length delta with
      | .ok (q, flow) => ⟨q, .ok flow, []⟩
      | .error e => ⟨p, .error e, []⟩ := by
  obtain ⟨c, hc, ha⟩ : ∃ c, s.command = .special c ∧
      c.apply p length s.arguments = SpecialCommand.jumpBy p length delta := apply_of_jumps h
  unfold execute
  rw [hc]
  dsimp only
  cases hj : SpecialCommand.jumpBy p length delta <;> simp only [ha, hj]

lemma stepWith_of_jumps (host : Host) (length : Nat) {s : Statement} {delta : Int64}
    (hspill : p.spill = 0) (h : p.Jumps s delta) (hd : 0 ≤ delta.toInt) :
    p.stepWith host length s =
      if p.pc + delta.toInt.toNat < length then .on { p with pc := p.pc + delta.toInt.toNat } []
      else .ended (p.leave (p.pc + delta.toInt.toNat - length + 1)) := by
  have hz : ¬0 < p.spill := by omega
  unfold stepWith
  rw [execute_of_jumps host length h, SpecialCommand.jumpBy_forward hd]
  by_cases hl : p.pc + delta.toInt.toNat < length
  · rw [if_pos hl, if_pos hl]
    exact if_neg hz
  · rw [if_neg hl, if_neg hl]
    rfl

lemma stepWith_backward (host : Host) (length : Nat) {s : Statement} {delta : Int64}
    (h : p.Jumps s delta) (hd : delta.toInt < 0) :
    p.stepWith host length s =
      .ended ⟨{ p with phase := .failed }, .error ⟨s.command, p.pc, .backwardsJump delta⟩, []⟩ := by
  unfold stepWith
  rw [execute_of_jumps host length h, SpecialCommand.jumpBy_backward hd]

lemma stepWith_cases (host : Host) (length : Nat) {s : Statement} (hspill : p.spill = 0)
    (h : ∀ delta, ¬p.Jumps s delta) :
    (∃ r f, p.stepWith host length s = .ended r ∧ r.outcome = .error f) ∨
      ∃ q effects, p.stepWith host length s = .on q effects ∧ q.pc ≤ p.pc + 1 ∧
        q.spill = 0 ∧ q.phase = p.phase := by
  have hz : ¬0 < p.spill := by omega
  unfold stepWith
  rw [execute_of_not_jumps host length h]
  generalize p.blank.execute host 0 s = x
  obtain ⟨u, outcome, effects⟩ := x
  cases outcome with
  | error e => exact .inl ⟨_, _, rfl, rfl⟩
  | ok flow =>
    have hif {α : Type} (a b : α) : (if 0 < p.spill then a else b) = b := if_neg hz
    cases flow with
    | next => exact .inr ⟨_, _, hif _ _, Nat.le_refl _, hspill, rfl⟩
    | jumped => exact .inr ⟨_, _, hif _ _, Nat.le_succ _, hspill, rfl⟩

/-- What a step inside of `P` comes to when `Q` stands behind `P`. -/
lemma step_append {P : List Statement} (host : Host) (Q : List Statement) (hpc : p.pc < P.length)
    (hspill : p.spill = 0) :
    (∃ target, P.length ≤ target ∧ p.step host P = .ended (p.leave (target - P.length + 1)) ∧
        p.step host (P ++ Q) =
          if target < P.length + Q.length then .on { p with pc := target } []
          else .ended (p.leave (target - (P.length + Q.length) + 1))) ∨
      p.step host (P ++ Q) = p.step host P ∧
        ((∃ r f, p.step host P = .ended r ∧ r.outcome = .error f) ∨
          ∃ q effects, p.step host P = .on q effects ∧ q.pc ≤ P.length ∧ q.spill = 0 ∧
            q.phase = p.phase) := by
  have hs : P[p.pc]? = some P[p.pc] := List.getElem?_eq_getElem hpc
  have hs' : (P ++ Q)[p.pc]? = some P[p.pc] := by rw [List.getElem?_append_left hpc, hs]
  unfold step
  rw [hs, hs']
  dsimp only
  rw [List.length_append]
  -- Only a jump tells the two programs apart: it may lead to a statement of `Q`.
  by_cases hj : ∃ delta, p.Jumps P[p.pc] delta
  · obtain ⟨delta, hj⟩ := hj
    by_cases hd : 0 ≤ delta.toInt
    · rw [stepWith_of_jumps host _ hspill hj hd, stepWith_of_jumps host _ hspill hj hd]
      generalize p.pc + delta.toInt.toNat = target
      by_cases ht : target < P.length
      · rw [if_pos ht, if_pos (by omega)]
        exact .inr ⟨rfl, .inr ⟨_, _, rfl, Nat.le_of_lt ht, hspill, rfl⟩⟩
      · rw [if_neg ht]
        exact .inl ⟨target, Nat.le_of_not_lt ht, rfl, rfl⟩
    · have hb := Int.not_le.1 hd
      rw [stepWith_backward host _ hj hb, stepWith_backward host _ hj hb]
      exact .inr ⟨rfl, .inl ⟨_, _, rfl, rfl⟩⟩
  · rw [not_exists] at hj
    refine .inr ⟨stepWith_of_not_jumps host hj _ _, ?_⟩
    obtain hf | ⟨q, effects, hq, hle, hrest⟩ := stepWith_cases host P.length hspill hj
    · exact .inl hf
    · exact .inr ⟨q, effects, hq, by omega, hrest⟩

end Processor

/-- The processor `n` statements further on, also with an earlier wish to end. -/
def Processor.behind (n : Nat) (exit : Bool) (p : Processor) : Processor :=
  { p with pc := n + p.pc, exitRequested := p.exitRequested || exit }

def Run.behind (n : Nat) (exit : Bool) (r : Run) : Run where
  processor := r.processor.behind n exit
  outcome := r.outcome.mapError fun f => { f with pc := n + f.pc }
  effects := r.effects

def Processor.Step.behind (n : Nat) (exit : Bool) : Step → Step
  | .ended r => .ended (r.behind n exit)
  | .on q effects => .on (q.behind n exit) effects

namespace Processor

variable {p : Processor} {n : Nat} {exit : Bool}

lemma jumps_behind {s : Statement} {delta : Int64} :
    (p.behind n exit).Jumps s delta ↔ p.Jumps s delta := by
  constructor
  · rintro (ha | ⟨ha, hc, hv⟩)
    · exact .jump ha
    · exact .jumpIf ha hc hv
  · rintro (ha | ⟨ha, hc, hv⟩)
    · exact .jump ha
    · exact .jumpIf ha hc hv

lemma adopt_behind (q : Processor) :
    (p.behind n exit).adopt q = (p.adopt q).behind n exit := by
  unfold adopt behind
  rw [Bool.or_assoc]

lemma stepWith_behind (host : Host) (length : Nat) (s : Statement) (hspill : p.spill = 0) :
    (p.behind n exit).stepWith host (n + length) s = (p.stepWith host length s).behind n exit := by
  by_cases hj : ∃ delta, p.Jumps s delta
  · obtain ⟨delta, hj⟩ := hj
    have hj' : (p.behind n exit).Jumps s delta := jumps_behind.2 hj
    have hspill' : (p.behind n exit).spill = 0 := hspill
    by_cases hd : 0 ≤ delta.toInt
    · have hpc : (p.behind n exit).pc = n + p.pc := rfl
      rw [stepWith_of_jumps host _ hspill hj hd, stepWith_of_jumps host _ hspill' hj' hd, hpc,
        Nat.add_assoc, Nat.add_sub_add_left]
      by_cases hl : p.pc + delta.toInt.toNat < length
      · rw [if_pos hl, if_pos (Nat.add_lt_add_left hl n)]
        rfl
      · rw [if_neg hl, if_neg (by omega)]
        rfl
    · have hb := Int.not_le.1 hd
      rw [stepWith_backward host _ hj hb, stepWith_backward host _ hj' hb]
      rfl
  · rw [not_exists] at hj
    have hj' (delta : Int64) : ¬(p.behind n exit).Jumps s delta := fun h => hj delta (jumps_behind.1 h)
    have hb : (p.behind n exit).blank = p.blank := rfl
    unfold stepWith
    rw [execute_of_not_jumps host length hj, execute_of_not_jumps host (n + length) hj', hb]
    unfold Executed.onto
    rw [adopt_behind]
    generalize p.blank.execute host 0 s = x
    obtain ⟨u, outcome, effects⟩ := x
    dsimp only
    have hz : ¬0 < ((p.adopt u).behind n exit).spill := by
      change ¬0 < p.spill
      omega
    have hz' : ¬0 < (p.adopt u).spill := hz
    cases outcome with
    | error e => rfl
    | ok flow =>
      dsimp only
      rw [if_neg hz, if_neg hz']
      cases flow <;> rfl

lemma step_behind (host : Host) (exit : Bool) (P Q : List Statement) (hspill : p.spill = 0) :
    (p.behind P.length exit).step host (P ++ Q) = (p.step host Q).behind P.length exit := by
  have hi : (P ++ Q)[(p.behind P.length exit).pc]? = Q[p.pc]? := by
    change (P ++ Q)[P.length + p.pc]? = _
    rw [List.getElem?_append_right (Nat.le_add_right _ _), Nat.add_sub_cancel_left]
  unfold step
  rw [hi]
  cases Q[p.pc]? with
  | none => rfl
  | some s =>
    dsimp only
    rw [List.length_append]
    exact stepWith_behind host Q.length s hspill

theorem runBy_behind (hosts : Nat → Host) (exit : Bool) (P Q : List Statement)
    (hspill : p.spill = 0) :
    (p.behind P.length exit).runBy hosts (P ++ Q) =
      (p.runBy (fun i => hosts (P.length + i)) Q).map (Run.behind P.length exit) := by
  induction p using run_induction (fun i => hosts (P.length + i)) Q with
  | ended p r h =>
    have hb := step_behind (hosts (P.length + p.pc)) exit P Q hspill
    have hQ : p.runBy (fun i => hosts (P.length + i)) Q = some r := runBy_ended h
    rw [h] at hb
    rw [runBy_ended hb, hQ]
    rfl
  | on p q effects h ih =>
    have hb := step_behind (hosts (P.length + p.pc)) exit P Q hspill
    have hQ : p.runBy (fun i => hosts (P.length + i)) Q =
        if p.pc < q.pc then (q.runBy (fun i => hosts (P.length + i)) Q).map (Run.after effects)
        else none := runBy_on h
    rw [h] at hb
    rw [runBy_on hb, hQ]
    change (if P.length + p.pc < P.length + q.pc then _ else _) = _
    by_cases hq : p.pc < q.pc
    · rw [if_pos hq, if_pos (by omega), ih hq (step_on_inside h).2, Option.map_map, Option.map_map]
      rfl
    · rw [if_neg hq, if_neg (by omega)]
      rfl

end Processor

/-! ### The law -/

/-- A processor at the statement `pc` of another program, on the frame that is left. -/
def Processor.resumeAt (p : Processor) (pc : Nat) : Processor :=
  { p with pc, spill := 0, exitRequested := false, phase := .running }

/-- The run goes on in `Q` from its statement `pc`, and `Q` stands at place `n`. -/
def Run.resume (r : Run) (hosts : Nat → Host) (n : Nat) (Q : List Statement) (pc : Nat) :
    Option Run :=
  ((r.processor.resumeAt pc).runBy (fun i => hosts (n + i)) Q).map fun u =>
    (u.behind n r.processor.exitRequested).after r.effects

/-- The run, but that its jump out led as far as `spill`. -/
def Run.spilling (r : Run) (spill : Nat) (value : Option Value) : Run :=
  { r with
    processor := { r.processor with spill, phase := .jumpedOut spill }
    outcome := .ok (.jumpedOut spill value) }

/-- What a run becomes when `Q` stands behind its program, which is `n` statements long. -/
def Run.followedBy (r : Run) (hosts : Nat → Host) (n : Nat) (Q : List Statement) : Option Run :=
  match r.outcome with
  | .error _ => some r
  | .ok (.done _) => r.resume hosts n Q 0
  | .ok (.jumpedOut spill value) =>
    if spill ≤ Q.length then r.resume hosts n Q (spill - 1)
    else some (r.spilling (spill - Q.length) value)

lemma Run.after_resume (effects : List Effect) (r : Run) (hosts : Nat → Host) (n : Nat)
    (Q : List Statement) (pc : Nat) :
    (r.after effects).resume hosts n Q pc = (r.resume hosts n Q pc).map (Run.after effects) := by
  unfold resume
  rw [Option.map_map]
  congr 1
  funext u
  unfold after
  simp only [Function.comp, List.append_assoc]

lemma Run.after_followedBy (effects : List Effect) (r : Run) (hosts : Nat → Host) (n : Nat)
    (Q : List Statement) :
    (r.after effects).followedBy hosts n Q =
      (r.followedBy hosts n Q).map (Run.after effects) := by
  unfold followedBy
  change (match r.outcome with | .error _ => _ | .ok (.done _) => _ | .ok (.jumpedOut _ _) => _) = _
  cases r.outcome with
  | error f => rfl
  | ok halt =>
    cases halt with
    | done value => exact after_resume effects r hosts n Q 0
    | jumpedOut spill value =>
      dsimp only
      by_cases hs : spill ≤ Q.length
      · rw [if_pos hs, if_pos hs, after_resume]
      · rw [if_neg hs, if_neg hs]
        rfl

namespace Processor

variable {p : Processor}

lemma runBy_resumed (hosts : Nat → Host) (P Q : List Statement) (pc : Nat)
    (hpc : p.pc = P.length + pc) (hspill : p.spill = 0) (hphase : p.phase = .running) :
    p.runBy hosts (P ++ Q) =
      ((p.resumeAt pc).runBy (fun i => hosts (P.length + i)) Q).map
        (Run.behind P.length p.exitRequested) := by
  have hp : p = (p.resumeAt pc).behind P.length p.exitRequested := by
    obtain ⟨stack, context, savedFrame, _, _, exit, _⟩ := p
    cases hpc
    cases hspill
    cases hphase
    rfl
  have hb := runBy_behind (p := p.resumeAt pc) hosts p.exitRequested P Q rfl
  rwa [← hp] at hb

lemma runBy_at_end (hosts : Nat → Host) (P Q : List Statement) (hpc : p.pc = P.length)
    (hspill : p.spill = 0) (hphase : p.phase = .running) :
    p.runBy hosts (P ++ Q) = p.finish.followedBy hosts P.length Q :=
  runBy_resumed hosts P Q 0 hpc hspill hphase

lemma runBy_at_leave (hosts : Nat → Host) (P Q : List Statement) {target : Nat}
    (hpc : p.pc < P.length) (hspill : p.spill = 0) (hphase : p.phase = .running)
    (hle : P.length ≤ target)
    (h : p.step (hosts p.pc) (P ++ Q) =
      if target < P.length + Q.length then .on { p with pc := target } []
      else .ended (p.leave (target - (P.length + Q.length) + 1))) :
    p.runBy hosts (P ++ Q) = (p.leave (target - P.length + 1)).followedBy hosts P.length Q := by
  unfold Run.followedBy leave
  dsimp only
  by_cases ht : target < P.length + Q.length
  · rw [if_pos ht] at h
    have hforward : p.pc < target := by omega
    have htarget : target = P.length + (target - P.length) := by omega
    rw [if_pos (by omega), runBy_on h, if_pos hforward]
    have hr := runBy_resumed (p := { p with pc := target }) hosts P Q _ htarget hspill hphase
    rw [hr, Option.map_map]
    rfl
  · rw [if_neg ht] at h
    have hsub : target - P.length + 1 - Q.length = target - (P.length + Q.length) + 1 := by omega
    rw [if_neg (by omega), runBy_ended h, hsub]
    rfl

theorem runBy_followedBy (hosts : Nat → Host) (P Q : List Statement) (hpc : p.pc ≤ P.length)
    (hspill : p.spill = 0) (hphase : p.phase = .running) :
    p.runBy hosts (P ++ Q) = (p.runBy hosts P).bind fun r => r.followedBy hosts P.length Q := by
  -- Along the run of `P`: the two runs take the same steps until that one is over.
  induction p using run_induction hosts P with
  | ended p r h =>
    rw [runBy_ended h, Option.bind_some]
    obtain hpc | hpc := Nat.eq_or_lt_of_le hpc
    · have hnone : P[p.pc]? = none := List.getElem?_eq_none (Nat.le_of_eq hpc.symm)
      unfold step at h
      rw [hnone] at h
      cases h
      exact runBy_at_end hosts P Q hpc hspill hphase
    · obtain ⟨target, hle, hP, hPQ⟩ | ⟨hPQ, ⟨r', f, hP, hf⟩ | ⟨q, effects, hP, -⟩⟩ :=
        step_append (hosts p.pc) Q hpc hspill
      · rw [h] at hP
        cases hP
        exact runBy_at_leave hosts P Q hpc hspill hphase hle hPQ
      · rw [h] at hP hPQ
        cases hP
        rw [runBy_ended hPQ]
        unfold Run.followedBy
        rw [hf]
      · rw [h] at hP
        cases hP
  | on p q effects h ih =>
    obtain ⟨target, -, hP, -⟩ | ⟨hPQ, ⟨r, f, hP, -⟩ | ⟨q', effects', hP, hqpc, hqspill, hqphase⟩⟩ :=
      step_append (hosts p.pc) Q (step_on_inside h).1 hspill
    · rw [h] at hP
      cases hP
    · rw [h] at hP
      cases hP
    · rw [h] at hP hPQ
      cases hP
      rw [runBy_on h, runBy_on hPQ]
      by_cases hq : p.pc < q.pc
      · rw [if_pos hq, if_pos hq, ih hq hqpc hqspill (hqphase.trans hphase), Option.map_bind,
          Option.bind_map]
        congr 1
        funext r
        exact (Run.after_followedBy effects r hosts P.length Q).symm
      · rw [if_neg hq, if_neg hq]
        rfl

/-- A run of two programs, one behind the other, is settled by the run of the first. If that fails
or never ends, so does the whole; if it ends, or spills into the second program, the whole goes on
as that program does from there. -/
theorem runBy_append (hosts : Nat → Host) (P Q : List Statement) (s stack : Stack)
    (context : Option Object) :
    let p : Processor := { start s context with stack, phase := .running }
    p.runBy hosts (P ++ Q) = (p.runBy hosts P).bind fun r =>
      match r.outcome with
      | .error _ => some r
      | .ok (.done _) => r.resume hosts P.length Q 0
      | .ok (.jumpedOut spill value) =>
        if spill ≤ Q.length then r.resume hosts P.length Q (spill - 1)
        else some (r.spilling (spill - Q.length) value) := by
  intro p
  exact runBy_followedBy hosts P Q (Nat.zero_le _) rfl rfl

end Processor

end TransactionEngine
