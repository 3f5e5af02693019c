import TransactionEngine.Proofs.ArgumentRuns
import TransactionEngine.Proofs.Positions

/-!
# Statements in place

A statement as steps that change the processor as they go, in numbers that fit a word, with every
check that is made on the way. `Fault` lists the checks that no statement is meant to fail. On a
stack and a program that fit memory the steps come to what the statement says, so none of these
checks fails and whatever stops a statement leaves the processor as the statement says.
-/

namespace TransactionEngine

/-- Checks that no statement is meant to fail. -/
inductive Fault where
  | frameAboveTop
  | slotLost
  | runAboveTop
  | keepsTooMany
  | runNotPopped
  | spillWraps
  | frameNotRestored
deriving DecidableEq

/-- Why steps stop. -/
inductive Stop where
  | failed (e : Error)
  | broken (fault : Fault)

/-- A processor in the middle of a statement. -/
structure Underway where
  processor : Processor
  jumped : Bool
  effects : List Effect

def Underway.on (u : Underway) (stack : Stack) : Underway :=
  { u with processor := { u.processor with stack } }

/-- After work on the slots from `start` up. -/
def Underway.worked (u : Underway) (start : Nat) (w : Workbench) : Underway :=
  { u.on (u.processor.stack.overwriteFrom start w.run) with effects := u.effects ++ w.effects }

abbrev Steps :=
  EStateM Stop Underway

namespace Steps

variable {α β : Type}

def ofExcept : Except Error α → Steps α
  | .ok a => pure a
  | .error e => throw (.failed e)

def check (fault : Fault) : Except Error α → Steps α
  | .ok a => pure a
  | .error _ => throw (.broken fault)

def stack : Steps Stack := do
  let u ← get
  pure u.processor.stack

def frameLength : Steps Nat := do
  let s ← stack
  if s.top < s.frame then throw (.broken .frameAboveTop)
  pure (s.top - s.frame)

def resolveIndex (position : Int64) : Steps Nat := do
  let s ← stack
  let index ← ofExcept (s.indexInWord position)
  if index < s.frame then throw (.failed (.belowFrame position))
  pure index

/-- The slot that has this number, taken as a position once more. -/
def slotAgain (index : Nat) : Steps Nat := do
  let s ← stack
  let again ← check .slotLost (s.indexInWord (Int64.ofNat index))
  if again ≠ index then throw (.broken .slotLost)
  pure again

def resolve : Argument → Steps Value
  | .direct v => pure v
  | .position position => do
    let index ← resolveIndex position
    let again ← slotAgain index
    let s ← stack
    match s.get? again with
    | some v => pure v
    | none => throw (.broken .slotLost)

def resolveAll (arguments : List Argument) : Steps (List Value) :=
  arguments.mapM resolve

def count (c : SpecialCommand) (a : Argument) : Steps Nat := do
  let v ← resolve a
  let n ← ofExcept v.asInt
  if n.toInt < 0 then throw (.failed (.negativeCount c.name n))
  pure n.toInt.toNat

def pushNils (n : Nat) : Steps Unit := do
  let s ← stack
  let s ← ofExcept (s.push n)
  modify fun u => u.on s

def pushValues (values : List Value) : Steps Unit := do
  let s ← stack
  let s ← ofExcept (s.pushValues values)
  modify fun u => u.on s

def popSlots (refused : Error → Stop) (n : Nat) : Steps Unit := do
  let available ← frameLength
  if available < n then throw (refused (.popBelowFrame n available))
  modify fun u =>
    let s := u.processor.stack
    u.on (Stack.shrink { s with slots := s.slots.take (s.top - n) })

def push : List Argument → Steps Unit
  | [] => pushNils 1
  | first :: values => do
    let n ← count .push first
    if values.isEmpty then pushNils n
    else if values.length ≠ n then throw (.failed (.pushCount n values.length))
    else do
      let values ← resolveAll values
      pushValues values

def pop : List Argument → Steps Unit
  | [] => popSlots .failed 1
  | [a] => do
    let n ← count .pop a
    popSlots .failed n
  | _ => throw (.failed (.takesAtMostOne SpecialCommand.pop.name))

def store : List Argument → Steps Unit
  | [source, .position target] => do
    let v ← resolve source
    let index ← resolveIndex target
    let again ← slotAgain index
    modify fun u => u.on (u.processor.stack.set again v)
  | [_, .direct _] => throw (.failed .storeIntoLiteral)
  | arguments => throw (.failed (.takesArguments SpecialCommand.store.name 2 arguments.length))

/-- Moves the processor to a place in a program of `length` statements, or says how far past the end
the place is. -/
def land (length target : Nat) : Steps Nat :=
  if target < length then do
    modify fun u => { u with processor := { u.processor with pc := target }, jumped := true }
    pure 0
  else if UInt64.size ≤ target - length + 1 then throw (.broken .spillWraps)
  else pure (target - length + 1)

/-- A jump; a sum that does not fit a word is the greatest word. -/
def jump (length : Nat) (delta : Int64) : Steps Nat := do
  let u ← get
  if delta.toInt < 0 then throw (.failed (.backwardsJump delta))
  land length (min (u.processor.pc + delta.toInt.toNat) (UInt64.size - 1))

def jumpBy (length : Nat) (delta : Int64) : Steps Unit := do
  let spill ← jump length delta
  if 0 < spill then modify fun u => { u with processor := { u.processor with spill } }

def jumpTo (length : Nat) : List Argument → Steps Unit
  | [a] => do
    let v ← resolve a
    let delta ← ofExcept v.asInt
    jumpBy length delta
  | arguments => throw (.failed (.takesArguments SpecialCommand.jump.name 1 arguments.length))

def jumpIf (length : Nat) : List Argument → Steps Unit
  | [condition, a] => do
    let v ← resolve a
    let delta ← ofExcept v.asInt
    let w ← resolve condition
    let holds ← ofExcept w.truthy
    if holds then jumpBy length delta
  | arguments => throw (.failed (.takesArguments SpecialCommand.jumpIf.name 2 arguments.length))

def context : List Argument → Steps Unit
  | [] => do
    let u ← get
    pushValues [(u.processor.context.map Value.object).getD .nil]
  | _ => throw (.failed (.takesNoArguments SpecialCommand.context.name))

def exit : List Argument → Steps Unit
  | [] => modify fun u => { u with processor := { u.processor with exitRequested := true } }
  | _ => throw (.failed (.takesNoArguments SpecialCommand.exit.name))

def special (c : SpecialCommand) (length : Nat) (arguments : List Argument) : Steps Unit :=
  match c with
  | .context => context arguments
  | .exit => exit arguments
  | .jump => jumpTo length arguments
  | .jumpIf => jumpIf length arguments
  | .pop => pop arguments
  | .push => push arguments
  | .store => store arguments

/-- Steps on the slots from `start` up, which stay rewritten if the steps fail. -/
def onRun (handler : Handler) (start : Nat) (run : List Value) : Steps Nat := fun u =>
  match handler ⟨run, []⟩ with
  | .ok kept w => .ok kept (u.worked start w)
  | .error e w => .error (.failed e) (u.worked start w)

/-- Pops the slots of a run but for the first ones, which are kept. -/
def keep (run kept : Nat) : Steps Unit := do
  if run < kept then throw (.broken .keepsTooMany)
  popSlots (fun _ => .broken .runNotPopped) (run - kept)

def applyFrom (host : Host) (c : RegularCommand) (start : Nat) : Steps Unit := do
  let s ← stack
  let run ← check .runAboveTop (s.slotsFrom start)
  let kept ← onRun (c.inPlace host) start run
  keep run.length kept

def regular (host : Host) (c : RegularCommand) (arguments : List Argument) : Steps Unit := do
  let s ← stack
  if arguments.isEmpty then applyFrom host c s.frame
  else do
    let values ← resolveAll arguments
    pushValues values
    applyFrom host c s.top

def statement (host : Host) (length : Nat) (s : Statement) : Steps Unit :=
  match s.command with
  | .regular c => regular host c s.arguments
  | .special c => special c length s.arguments

end Steps

/-! ### What the steps come to -/

/-- What the steps of a statement come to that comes to this. -/
def Executed.settled : Executed → EStateM.Result Stop Underway Unit
  | ⟨p, .ok flow, effects⟩ => .ok () ⟨p, flow = .jumped, effects⟩
  | ⟨p, .error e, effects⟩ => .error (.failed e) ⟨p, false, effects⟩

namespace Processor

/-- The processor at the beginning of a statement. -/
def begun (p : Processor) : Underway :=
  ⟨p, false, []⟩

/-- The processor after a special command that came to this. -/
def after (p : Processor) : Except Error (Processor × Flow) → Executed
  | .ok (q, flow) => ⟨q, .ok flow, []⟩
  | .error e => ⟨p, .error e, []⟩

/-- What the steps of a jump come to that leads there. -/
def landed (p : Processor) : Except Error Landing → EStateM.Result Stop Underway Nat
  | .ok (.inside target) => .ok 0 ⟨{ p with pc := target }, true, []⟩
  | .ok (.outside spill) => .ok spill p.begun
  | .error e => .error (.failed e) p.begun

/-- A processor in its frame and in its program, in memory that holds both. -/
structure Sound (length : Nat) (p : Processor) : Prop where
  framed : p.stack.Framed
  stack : p.stack.top ≤ greatestLength
  pc : p.pc ≤ length
  program : length ≤ greatestLength

lemma execute_special (host : Host) (length : Nat) (p : Processor) (c : SpecialCommand)
    (arguments : List Argument) :
    p.execute host length ⟨.special c, arguments⟩ = p.after (c.apply p length arguments) := by
  unfold execute
  dsimp only
  cases c.apply p length arguments with
  | error e => rfl
  | ok x => rfl

end Processor

namespace Steps

open Processor (Sound)

variable {α : Type} {p : Processor} {u : Underway} {length : Nat}

lemma bind_of_eq {β : Type} {x : Steps α} {y : Except Error α} (h : x u = ofExcept y u)
    (f : α → Steps β) : (x >>= f) u = (ofExcept y >>= f) u := by
  change EStateM.bind x f u = EStateM.bind (ofExcept y) f u
  unfold EStateM.bind
  rw [h]

lemma refuse_eq (c : Prop) [Decidable c] (e : Error) (a : α) :
    (if c then throw (.failed e) else pure a : Steps α) u =
      ofExcept (if c then .error e else pure a) u := by
  by_cases hc : c
  · rw [if_pos hc, if_pos hc]
    rfl
  · rw [if_neg hc, if_neg hc]
    rfl

lemma resolveIndex_eq (position : Int64) :
    resolveIndex position u = ofExcept (u.processor.resolveIndex position) u := by
  unfold resolveIndex Processor.resolveIndex
  change (ofExcept (u.processor.stack.indexInWord position) >>= _) u = _
  rw [Stack.indexInWord_eq]
  cases u.processor.stack.indexOf position with
  | error e => rfl
  | ok index => exact refuse_eq (index < u.processor.stack.frame) (.belowFrame position) index

lemma slotAgain_eq {position : Int64} {index : Nat}
    (hm : u.processor.stack.top ≤ greatestLength)
    (hi : u.processor.resolveIndex position = .ok index) : slotAgain index u = .ok index u := by
  have ht := (Processor.resolveIndex_eq_ok_iff.1 hi).2.2
  unfold slotAgain
  change (check .slotLost (u.processor.stack.indexInWord (Int64.ofNat index)) >>= _) u = _
  rw [Stack.indexInWord_ofNat hm ht]
  change (if index ≠ index then _ else _ : Steps Nat) u = _
  rw [if_neg (not_not.2 rfl)]
  rfl

lemma resolve_eq (hm : u.processor.stack.top ≤ greatestLength) (a : Argument) :
    resolve a u = ofExcept (u.processor.resolve a) u := by
  cases a with
  | direct v => rfl
  | position position =>
    change (resolveIndex position >>= _) u = _
    rw [bind_of_eq (resolveIndex_eq position)]
    cases hi : u.processor.resolveIndex position with
    | error e =>
      rw [Processor.resolve, hi]
      rfl
    | ok index =>
      obtain ⟨v, hv⟩ := Processor.get?_of_index hi
      rw [Processor.resolve_of_index hi hv]
      change EStateM.bind (slotAgain index) _ u = _
      unfold EStateM.bind
      rw [slotAgain_eq hm hi]
      change (match u.processor.stack.get? index with
        | some v => pure v
        | none => throw (.broken .slotLost) : Steps Value) u = _
      rw [hv]
      rfl

lemma resolveAll_eq (hm : u.processor.stack.top ≤ greatestLength) (arguments : List Argument) :
    resolveAll arguments u = ofExcept (u.processor.resolveAll arguments) u := by
  unfold resolveAll Processor.resolveAll
  induction arguments with
  | nil => rfl
  | cons a arguments ih =>
    rw [List.mapM_cons, List.mapM_cons, bind_of_eq (resolve_eq hm a)]
    cases u.processor.resolve a with
    | error e => rfl
    | ok v =>
      change (arguments.mapM resolve >>= _) u = _
      rw [bind_of_eq ih]
      cases arguments.mapM u.processor.resolve with
      | error e => rfl
      | ok values => rfl

lemma count_eq (hm : u.processor.stack.top ≤ greatestLength) (c : SpecialCommand)
    (a : Argument) : count c a u = ofExcept (c.count u.processor a) u := by
  unfold count SpecialCommand.count
  rw [bind_of_eq (resolve_eq hm a)]
  cases u.processor.resolve a with
  | error e => rfl
  | ok v =>
    change (ofExcept v.asInt >>= _) u = ofExcept (v.asInt >>= _) u
    cases v.asInt with
    | error e => rfl
    | ok n => exact refuse_eq (n.toInt < 0) (.negativeCount c.name n) n.toInt.toNat

/-- A statement that begins with a look at the processor comes to what it comes to after that. -/
lemma bind_settled {x : Steps α} {y : Except Error α} {f : α → Steps Unit}
    {g : α → Except Error (Processor × Flow)} (hx : x p.begun = ofExcept y p.begun)
    (hf : ∀ a, y = .ok a → f a p.begun = (p.after (g a)).settled) :
    (x >>= f) p.begun = (p.after (y >>= g)).settled := by
  rw [bind_of_eq hx]
  cases y with
  | error e => rfl
  | ok a => exact hf a rfl

lemma onStack_eq (stack : Except Error Stack) :
    (do
      let s ← ofExcept stack
      modify fun u => u.on s : Steps Unit) p.begun =
      (p.after (SpecialCommand.onStack p stack)).settled := by
  cases stack with
  | error e => rfl
  | ok s => rfl

lemma frameLength_eq (hp : u.processor.stack.Framed) :
    frameLength u = .ok u.processor.stack.frameLength u := by
  have hf : ¬u.processor.stack.top < u.processor.stack.frame := Nat.not_lt.2 hp
  change (if u.processor.stack.top < u.processor.stack.frame then _ else _ : Steps Nat) u = _
  rw [if_neg hf]
  rfl

lemma popSlots_eq (hp : u.processor.stack.Framed) (refused : Error → Stop) (n : Nat) :
    popSlots refused n u =
      match u.processor.stack.pop n with
      | .ok s => .ok () (u.on s)
      | .error e => .error (refused e) u := by
  unfold popSlots
  change EStateM.bind frameLength _ u = _
  unfold EStateM.bind
  rw [frameLength_eq hp]
  unfold Stack.pop
  change (if u.processor.stack.frameLength < n then _ else _ : Steps Unit) u = _
  by_cases hn : u.processor.stack.frameLength < n
  · rw [if_pos hn, if_pos hn]
    rfl
  · rw [if_neg hn, if_neg hn]
    rfl

lemma popFailed_eq (hp : p.stack.Framed) (n : Nat) :
    popSlots .failed n p.begun = (p.after (SpecialCommand.onStack p (p.stack.pop n))).settled := by
  have hs := popSlots_eq (u := p.begun) hp .failed n
  have hu : p.begun.processor.stack = p.stack := rfl
  rw [hs, hu]
  cases p.stack.pop n with
  | error e => rfl
  | ok s => rfl

lemma push_eq (hm : p.stack.top ≤ greatestLength) (arguments : List Argument) :
    push arguments p.begun = (p.after (SpecialCommand.applyPush p arguments)).settled := by
  cases arguments with
  | nil => exact onStack_eq (p.stack.push 1)
  | cons first values =>
    refine bind_settled (count_eq (u := p.begun) hm .push first) fun n _ => ?_
    by_cases hv : values.isEmpty
    · rw [if_pos hv, if_pos hv]
      exact onStack_eq (p.stack.push n)
    · rw [if_neg hv, if_neg hv]
      by_cases hn : values.length ≠ n
      · rw [if_pos hn, if_pos hn]
        rfl
      · rw [if_neg hn, if_neg hn]
        exact bind_settled (resolveAll_eq (u := p.begun) hm values)
          fun values _ => onStack_eq (p.stack.pushValues values)

lemma pop_eq (hp : p.stack.Framed) (hm : p.stack.top ≤ greatestLength)
    (arguments : List Argument) :
    pop arguments p.begun = (p.after (SpecialCommand.applyPop p arguments)).settled := by
  match arguments with
  | [] => exact popFailed_eq hp 1
  | [a] => exact bind_settled (count_eq (u := p.begun) hm .pop a) fun n _ => popFailed_eq hp n
  | _ :: _ :: _ => rfl

lemma store_eq (hm : p.stack.top ≤ greatestLength) (arguments : List Argument) :
    store arguments p.begun = (p.after (SpecialCommand.applyStore p arguments)).settled := by
  match arguments with
  | [source, .position target] =>
    refine bind_settled (resolve_eq (u := p.begun) hm source) fun v _ => ?_
    refine bind_settled (resolveIndex_eq (u := p.begun) target) fun index hi => ?_
    change EStateM.bind (slotAgain index) _ p.begun = _
    unfold EStateM.bind
    rw [slotAgain_eq (u := p.begun) hm hi]
    rfl
  | [_, .direct _] => rfl
  | [] => rfl
  | [_] => rfl
  | _ :: .direct _ :: _ :: _ => rfl
  | _ :: .position _ :: _ :: _ => rfl

/-- No jump leads so far out that a word does not hold how far. -/
lemma jump_eq (hp : p.Sound length) (delta : Int64) :
    jump length delta p.begun = p.landed (p.landing length delta) := by
  have hsum : p.pc + delta.toInt.toNat + 2 ≤ UInt64.size := by
    have hpc := hp.pc
    have hlength := hp.program
    have hdelta := delta.toInt_lt
    have hsize : UInt64.size = 2 ^ 64 := rfl
    unfold greatestLength at hlength
    omega
  have hmin : min (p.pc + delta.toInt.toNat) (UInt64.size - 1) = p.pc + delta.toInt.toNat := by
    omega
  unfold Processor.landing
  change (if delta.toInt < 0 then _ else
    land length (min (p.pc + delta.toInt.toNat) (UInt64.size - 1)) : Steps Nat) p.begun = _
  by_cases hd : delta.toInt < 0
  · rw [if_pos hd, if_pos hd]
    rfl
  · rw [if_neg hd, if_neg hd, hmin]
    unfold land
    dsimp only
    by_cases hl : p.pc + delta.toInt.toNat < length
    · rw [if_pos hl, if_pos hl]
      rfl
    · have hspill : ¬UInt64.size ≤ p.pc + delta.toInt.toNat - length + 1 := by omega
      rw [if_neg hl, if_neg hl, if_neg hspill]
      rfl

lemma jumpBy_eq (hp : p.Sound length) (delta : Int64) :
    jumpBy length delta p.begun = (p.after (SpecialCommand.jumpBy p length delta)).settled := by
  unfold jumpBy SpecialCommand.jumpBy
  change EStateM.bind (jump length delta) _ p.begun = _
  unfold EStateM.bind
  rw [jump_eq hp]
  cases hl : p.landing length delta with
  | error e => rfl
  | ok landing =>
    cases landing with
    | inside target => rfl
    | outside spill =>
      obtain ⟨_, ht, -⟩ | ⟨_, hs, hpos⟩ := Processor.landing_cases hl
      · cases ht
      · cases hs
        change (if 0 < spill then _ else _ : Steps Unit) p.begun = _
        rw [if_pos hpos]
        rfl

lemma jumpTo_eq (hp : p.Sound length) (arguments : List Argument) :
    jumpTo length arguments p.begun =
      (p.after (SpecialCommand.applyJump p length arguments)).settled := by
  match arguments with
  | [a] =>
    refine bind_settled (resolve_eq (u := p.begun) hp.stack a) fun v _ => ?_
    exact bind_settled rfl fun delta _ => jumpBy_eq hp delta
  | [] => rfl
  | _ :: _ :: _ => rfl

lemma jumpIf_eq (hp : p.Sound length) (arguments : List Argument) :
    jumpIf length arguments p.begun =
      (p.after (SpecialCommand.applyJumpIf p length arguments)).settled := by
  match arguments with
  | [condition, a] =>
    refine bind_settled (resolve_eq (u := p.begun) hp.stack a) fun v _ => ?_
    refine bind_settled rfl fun delta _ => ?_
    refine bind_settled (resolve_eq (u := p.begun) hp.stack condition) fun w _ => ?_
    refine bind_settled rfl fun holds _ => ?_
    cases holds with
    | true => exact jumpBy_eq hp delta
    | false => rfl
  | [] => rfl
  | [_] => rfl
  | _ :: _ :: _ :: _ => rfl

lemma special_eq (hp : p.Sound length) (c : SpecialCommand) (arguments : List Argument) :
    special c length arguments p.begun = (p.after (c.apply p length arguments)).settled := by
  cases c with
  | context =>
    cases arguments with
    | nil => exact onStack_eq (p.stack.pushValues _)
    | cons => rfl
  | exit => cases arguments <;> rfl
  | jump => exact jumpTo_eq hp arguments
  | jumpIf => exact jumpIf_eq hp arguments
  | pop => exact pop_eq hp.framed hp.stack arguments
  | push => exact push_eq hp.stack arguments
  | store => exact store_eq hp.stack arguments

lemma worked_begun {start : Nat} (hs : start ≤ p.stack.top) {slots : List Value}
    (hl : slots.length = (p.stack.slots.drop start).length) (effects : List Effect) :
    p.begun.worked start ⟨slots, effects⟩ =
      ⟨{ p with stack := { p.stack with slots := p.stack.slots.take start ++ slots } }, false,
        effects⟩ := by
  have ho := Stack.overwriteFrom_of_length hs (hl.trans List.length_drop)
  unfold Processor.begun Underway.worked Underway.on
  dsimp only
  rw [ho]
  rfl

/-- What is left of a run that work has ended on can be popped. -/
lemma keep_eq {s : Stack} {kept : Nat} {slots left : List Value}
    (hu : u.processor.stack = { s with slots := slots ++ left }) (hf : s.frame ≤ slots.length) :
    keep (kept + left.length) kept u = .ok () (u.on (Stack.shrink { s with slots })) := by
  have hframed : u.processor.stack.Framed := by
    rw [hu]
    exact Nat.le_trans hf (List.prefix_append _ _).length_le
  unfold keep
  change (if kept + left.length < kept then _ else
    popSlots (fun _ => .broken .runNotPopped) (kept + left.length - kept) : Steps Unit) u = _
  rw [if_neg (by omega), popSlots_eq hframed, hu, Nat.add_sub_cancel_left, Stack.pop_append s hf]

/-- The steps of a command find their run and can pop what the command does not keep. -/
lemma applyFrom_eq {start : Nat} (hf : p.stack.frame ≤ start) (hs : start ≤ p.stack.top)
    (host : Host) (c : RegularCommand) :
    applyFrom host c start p.begun = (p.applyFrom host c start).settled := by
  rw [Processor.applyFrom_eq host c hf hs]
  have hc := RegularCommand.comes_inPlace host c (p.stack.slots.drop start)
  unfold applyFrom
  change EStateM.bind (check .runAboveTop (p.stack.slotsFrom start)) _ p.begun = _
  unfold EStateM.bind Stack.slotsFrom
  rw [if_pos hs]
  change EStateM.bind (onRun (c.inPlace host) start (p.stack.slots.drop start))
    (keep (p.stack.slots.drop start).length) p.begun = _
  unfold EStateM.bind onRun
  -- From here on `Comes` is all that is known of the command and of its steps.
  generalize c.apply host (p.stack.slots.drop start) = applied at hc
  generalize c.inPlace host ⟨p.stack.slots.drop start, []⟩ = result at hc
  cases hc with
  | @failed left effects e hl =>
    dsimp only
    rw [worked_begun hs hl.length_eq]
    rfl
  | @done results left effects hl =>
    have hslots : (results ++ left).length = (p.stack.slots.drop start).length := by
      rw [List.length_append, hl]
    have hkept : p.stack.frame ≤ (p.stack.slots.take start ++ results).length := by
      rw [List.length_append, List.length_take_of_le hs]
      omega
    dsimp only
    rw [worked_begun hs hslots, ← hl, ← List.append_assoc]
    rw [keep_eq (s := p.stack) rfl hkept]
    rfl

lemma regular_eq (hp : p.stack.Framed) (hm : p.stack.top ≤ greatestLength) (host : Host)
    (c : RegularCommand) (arguments : List Argument) :
    regular host c arguments p.begun = (p.applyRegular host c arguments).settled := by
  unfold Processor.applyRegular
  change (if arguments.isEmpty then applyFrom host c p.stack.frame else _ : Steps Unit) p.begun = _
  by_cases ha : arguments.isEmpty
  · rw [if_pos ha, if_pos ha]
    exact applyFrom_eq (Nat.le_refl _) hp host c
  · have hv : resolveAll arguments p.begun = ofExcept (p.resolveAll arguments) p.begun :=
      resolveAll_eq (u := p.begun) hm arguments
    rw [if_neg ha, if_neg ha, bind_of_eq hv]
    cases p.resolveAll arguments with
    | error e => rfl
    | ok values =>
      change ((ofExcept (p.stack.pushValues values) >>= fun s => modify fun u => u.on s) >>=
        fun _ => applyFrom host c p.stack.top : Steps Unit) p.begun = _
      dsimp only
      cases hr : p.stack.pushValues values with
      | error e => rfl
      | ok room =>
        have hframe : room.frame = p.stack.frame := (Stack.Keeps.pushValues hp hr).frame
        have htop : p.stack.top ≤ room.top := by
          obtain ⟨k, rfl⟩ := Stack.pushValues_ok hr
          exact (List.prefix_append _ _).length_le
        exact applyFrom_eq (p := { p with stack := room }) (le_of_eq_of_le hframe hp) htop host c

/-- In memory that holds the stack and the program, a statement in place does what it says. No check
fails that is not meant to, and a statement that fails has changed what it says and no more. -/
theorem statement_eq (hp : p.Sound length) (host : Host) (s : Statement) :
    statement host length s p.begun = (p.execute host length s).settled := by
  obtain ⟨c, arguments⟩ := s
  cases c with
  | special c =>
    rw [Processor.execute_special]
    exact special_eq hp c arguments
  | regular c => exact regular_eq hp.framed hp.stack host c arguments

end Steps

end TransactionEngine
