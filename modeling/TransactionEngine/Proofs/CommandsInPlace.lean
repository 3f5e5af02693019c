import Mathlib.Tactic.Common
import TransactionEngine.Command.Regular

/-!
# Commands in place

A regular command as steps that rewrite its run slot by slot and say how many of the first slots
hold its results. The steps come to what the command says: the results stand in the first slots, no
slot is added or lost, and a command that fails leaves the run as it was, but for what an object
wrote that fails itself.
-/

namespace TransactionEngine

/-- The slots that a command works on, and what it did to the outside. -/
structure Workbench where
  run : List Value
  effects : List Effect

/-- Steps on the slots of a run; they come to the number of slots to keep. -/
abbrev Handler :=
  EStateM Error Workbench Nat

namespace RegularCommand

def keepFirst (v : Value) : Handler := do
  modify fun w => { w with run := w.run.set 0 v }
  pure 1

/-- Only reads the run, and puts what it came to into the first slot. -/
def collapseInPlace (read : List Value → Except Error Value) : Handler := do
  let w ← get
  let v ← MonadExcept.ofExcept (read w.run)
  keepFirst v

/-- Every value is taken out of its slot before the set is made. -/
def collectInPlace : Handler := do
  let w ← get
  if w.run.isEmpty then throw (set.tooFew 1 w.run)
  modify fun w => { w with run := List.replicate w.run.length .nil }
  keepFirst (Value.setOf w.run)

/-- The value is taken out of its slot before it gets its name. -/
def labelInPlace : Handler := do
  let w ← get
  match w.run with
  | [label, v] =>
    let s ← MonadExcept.ofExcept label.asString
    modify fun w => { w with run := w.run.set 1 .nil }
    keepFirst (.named s v)
  | run => throw (named.notExactly 2 run)

/-- The object works on the slots behind its own, which goes to the end in the end. -/
def callInPlace (host : Host) : Handler := do
  let w ← get
  match w.run with
  | [] => throw (call.tooFew 1 [])
  | v :: arguments =>
    let o ← MonadExcept.ofExcept v.asObject
    let r := o.run host arguments
    modify fun w => ⟨v :: r.arguments, w.effects ++ r.effects⟩
    let keep ← MonadExcept.ofExcept r.outcome
    modify fun w => { w with run := w.run.rotateLeft }
    pure (min keep (w.run.length - 1))

def logInPlace : Handler := do
  let w ← get
  match w.run with
  | source :: severity :: message =>
    let level ← MonadExcept.ofExcept (levelOf severity)
    let text := "[" ++ source.display ++ "] " ++ " ".intercalate (Value.displays message)
    modify fun w => { w with effects := w.effects ++ [.logged level text] }
    pure 0
  | run => throw (log.tooFew 2 run)

def startInPlace (host : Host) : Handler := do
  let w ← get
  match w.run with
  | [] => throw (exec.tooFew 1 [])
  | v :: vs =>
    let path ← MonadExcept.ofExcept v.asString
    let arguments := Value.displays vs
    modify fun w => { w with effects := w.effects ++ [.spawned path arguments] }
    match start host path arguments with
    | .ok process => keepFirst (.int (Int64.ofInt process.toNat))
    | .error failure => throw (.notStarted path failure)

def inPlace (host : Host) (c : RegularCommand) : Handler :=
  match c with
  | add => collapseInPlace (foldInts add Arithmetic.add)
  | and => collapseInPlace (foldBools and (· && ·))
  | call => callInPlace host
  | concat => collapseInPlace concatenated
  | div => collapseInPlace (foldInts div Arithmetic.div)
  | eq => collapseInPlace (chain eq fun v w => v.compare w == .eq)
  | exec => startInPlace host
  | gt => collapseInPlace (ordered gt fun v w => v.compare w == .gt)
  | hash => collapseInPlace hashed
  | log => logInPlace
  | lt => collapseInPlace (ordered lt fun v w => v.compare w == .lt)
  | mod => collapseInPlace (foldInts mod Arithmetic.mod)
  | mul => collapseInPlace (foldInts mul Arithmetic.mul)
  | named => labelInPlace
  | not => collapseInPlace negated
  | or => collapseInPlace (foldBools or (· || ·))
  | set => collectInPlace
  | sub => collapseInPlace (foldInts sub Arithmetic.sub)

/-! ### What the steps come to -/

/-- The object at the front of a run fails when it is run on the values behind it. -/
def ObjectFails (host : Host) : List Value → Prop
  | [] => False
  | v :: arguments => ∃ o e, v.asObject = .ok o ∧ (o.run host arguments).outcome = .error e

/-- What a command that fails leaves of its run; an object may have written to all slots but its own
before it failed. -/
inductive Leaves (host : Host) (c : RegularCommand) : List Value → List Value → Prop
  | whole (run : List Value) : Leaves host c run run
  | written {v : Value} {arguments written : List Value} (hc : c = call)
    (ho : ObjectFails host (v :: arguments)) (hl : written.length = arguments.length) :
    Leaves host c (v :: arguments) (v :: written)

/-- What the steps of a command come to on a run, if the command says `Applied` of it. -/
inductive Comes (host : Host) (c : RegularCommand) (run : List Value) :
    Applied → EStateM.Result Error Workbench Nat → Prop
  | done {results left : List Value} {effects : List Effect}
    (hl : results.length + left.length = run.length) :
    Comes host c run (.done results effects) (.ok results.length ⟨results ++ left, effects⟩)
  | failed {left : List Value} {effects : List Effect} (e : Error) (hl : Leaves host c run left) :
    Comes host c run (.failed e left effects) (.error e ⟨left, effects⟩)

variable {host : Host} {c : RegularCommand} {run left : List Value}

lemma Leaves.length_eq (h : Leaves host c run left) : left.length = run.length := by
  cases h with
  | whole => rfl
  | written _ _ hl => rw [List.length_cons, List.length_cons, hl]

lemma Leaves.eq_of_ne (h : Leaves host c run left) (hc : c ≠ call) : left = run := by
  cases h with
  | whole => rfl
  | written hcall => exact absurd hcall hc

lemma length_arguments (host : Host) (o : Object) (arguments : List Value) :
    (o.run host arguments).arguments.length = arguments.length := by
  unfold Object.run
  cases o with
  | plugin address type =>
    dsimp only
    cases host.run address arguments with
    | none => rfl
    | some answer => exact length_overwrite _ _
  | _ => rfl

lemma comes_first {v w : Value} {left rest : List Value} {effects : List Effect}
    (hl : left.length = rest.length) :
    Comes host c (w :: rest) (.done [v] effects) (.ok 1 ⟨v :: left, effects⟩) := by
  have hsum : [v].length + left.length = (w :: rest).length := by
    rw [hl]
    exact Nat.add_comm 1 _
  exact .done hsum

/-- A command that only reads its run fails on none or has a first slot to keep. -/
lemma comes_collapse {read : List Value → Except Error Value}
    (hread : ∃ e, read [] = .error e) (run : List Value) :
    Comes host c run (.single run (read run)) (collapseInPlace read ⟨run, []⟩) := by
  unfold collapseInPlace keepFirst
  change Comes host c run _ (EStateM.bind (MonadExcept.ofExcept (read run)) _ _)
  cases h : read run with
  | error e => exact .failed e (.whole run)
  | ok v =>
    cases run with
    | nil =>
      obtain ⟨e, he⟩ := hread
      rw [he] at h
      cases h
    | cons w ws => exact comes_first rfl

lemma comes_collect (run : List Value) :
    Comes host set run (set.apply host run) (collectInPlace ⟨run, []⟩) := by
  cases run with
  | nil => exact .failed _ (.whole [])
  | cons v vs => exact comes_first List.length_replicate

lemma comes_label (run : List Value) :
    Comes host named run (named.apply host run) (labelInPlace ⟨run, []⟩) := by
  match run with
  | [] => exact .failed _ (.whole [])
  | [v] => exact .failed _ (.whole [v])
  | [label, v] =>
    change Comes host named _ (.single [label, v] (label.asString >>= fun s => pure (.named s v)))
      (EStateM.bind (MonadExcept.ofExcept label.asString) _ _)
    cases label.asString with
    | error e => exact .failed e (.whole [label, v])
    | ok s => exact comes_first rfl
  | u :: v :: w :: rest => exact .failed _ (.whole _)

/-- The results of an object move to the first slots when its own slot goes to the end. -/
lemma comes_rotated (v : Value) {arguments written : List Value} {keep : Nat}
    (hlen : written.length = arguments.length) (effects : List Effect) :
    Comes host c (v :: arguments) (.done (written.take keep) effects)
      (.ok (min keep arguments.length) ⟨(v :: written).rotateLeft, effects⟩) := by
  have hkeep : min keep arguments.length = (written.take keep).length := by
    rw [List.length_take, hlen]
  have hrotated : (v :: written).rotateLeft = written.take keep ++ (written.drop keep ++ [v]) := by
    rw [← List.append_assoc, List.take_append_drop]
    cases written <;> simp [List.rotateLeft]
  rw [hkeep, hrotated]
  refine .done ?_
  rw [List.length_append, ← Nat.add_assoc, ← List.length_append, List.take_append_drop, hlen]
  rfl

lemma comes_call (run : List Value) :
    Comes host call run (call.apply host run) (callInPlace host ⟨run, []⟩) := by
  cases run with
  | nil => exact .failed _ (.whole [])
  | cons v arguments =>
    change Comes host call _ (called host (v :: arguments))
      (EStateM.bind (MonadExcept.ofExcept v.asObject) _ _)
    unfold called
    dsimp only
    cases ho : v.asObject with
    | error e => exact .failed e (.whole _)
    | ok o =>
      have hlen := length_arguments host o arguments
      dsimp only
      change Comes host call _ _
        (EStateM.bind (MonadExcept.ofExcept (o.run host arguments).outcome) _ _)
      cases he : (o.run host arguments).outcome with
      | error e => exact .failed e (.written rfl ⟨o, e, ho, he⟩ hlen)
      | ok keep => exact comes_rotated v hlen (o.run host arguments).effects

lemma comes_log (run : List Value) :
    Comes host log run (log.apply host run) (logInPlace ⟨run, []⟩) := by
  match run with
  | [] => exact .failed _ (.whole [])
  | [v] => exact .failed _ (.whole [v])
  | source :: severity :: message =>
    change Comes host log _ (written (source :: severity :: message))
      (EStateM.bind (MonadExcept.ofExcept (levelOf severity)) _ _)
    unfold written
    dsimp only
    cases levelOf severity with
    | error e => exact .failed e (.whole _)
    | ok level =>
      have hl (run : List Value) : ([] : List Value).length + run.length = run.length :=
        Nat.zero_add _
      exact .done (hl _)

lemma comes_start (run : List Value) :
    Comes host exec run (exec.apply host run) (startInPlace host ⟨run, []⟩) := by
  cases run with
  | nil => exact .failed _ (.whole [])
  | cons v vs =>
    change Comes host exec _ (started host (v :: vs))
      (EStateM.bind (MonadExcept.ofExcept v.asString) _ _)
    unfold started
    dsimp only
    cases v.asString with
    | error e => exact .failed e (.whole _)
    | ok path =>
      dsimp only
      change Comes host exec _ _ ((match start host path (Value.displays vs) with
        | .ok process => keepFirst (.int (Int64.ofInt process.toNat))
        | .error failure => throw (.notStarted path failure) : Handler)
          ⟨v :: vs, [.spawned path (Value.displays vs)]⟩)
      cases start host path (Value.displays vs) with
      | error failure => exact .failed _ (.whole _)
      | ok process => exact comes_first rfl

/-- In place, a command does what it says. -/
theorem comes_inPlace (host : Host) (c : RegularCommand) (run : List Value) :
    Comes host c run (c.apply host run) (c.inPlace host ⟨run, []⟩) := by
  cases c with
  | call => exact comes_call run
  | exec => exact comes_start run
  | log => exact comes_log run
  | named => exact comes_label run
  | set => exact comes_collect run
  | _ => exact comes_collapse ⟨_, rfl⟩ run

/-- A command keeps no more slots than its run has, and neither adds slots nor removes any. -/
lemma kept_le {kept : Nat} {w : Workbench} (h : c.inPlace host ⟨run, []⟩ = .ok kept w) :
    kept ≤ run.length ∧ w.run.length = run.length := by
  have hc := comes_inPlace host c run
  rw [h] at hc
  generalize c.apply host run = applied at hc
  cases hc with
  | done hl =>
    rw [List.length_append, hl]
    exact ⟨by omega, rfl⟩

lemma leaves_of_failed {e : Error} {effects : List Effect}
    (h : c.apply host run = .failed e left effects) : Leaves host c run left := by
  have hc := comes_inPlace host c run
  rw [h] at hc
  generalize c.inPlace host ⟨run, []⟩ = x at hc
  cases hc with
  | failed _ hl => exact hl

end RegularCommand

end TransactionEngine
