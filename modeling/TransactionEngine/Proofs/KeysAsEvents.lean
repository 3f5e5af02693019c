import TransactionEngine.Proofs.EngineAnswers
import TransactionEngine.Proofs.FiredTransactions

/-!
# Keys as events

Keys reach the registry only through the events of the combos that they complete, and nothing but
keys reaches the matcher. So an engine that gets, in place of each key, the events of the names
that the matcher gives for it, does the same and replies the same to everything else.
-/

namespace TransactionEngine

/-- A message that comes in, the object it comes through, and the host that answers while it is
handled. -/
structure Arrival where
  incoming : Incoming
  context : Option Object
  host : Host

/-- An engine after some messages, the answers to them, and what was done. -/
structure AllAnswered where
  engine : Engine
  replies : List Reply
  effects : List Effect

/-- The matcher after a message, which only a key changes. -/
def Matcher.hear (m : Matcher) : Incoming → Matcher
  | .message _ => m
  | .key _ event => (m.feed event).2

namespace Arrival

/-- What takes the place of an arrival: a key becomes the events of the names that it completes. -/
def asEvents (m : Matcher) (a : Arrival) : List Arrival :=
  match a.incoming with
  | .message _ => [a]
  | .key id event =>
    (m.feed event).1.map fun name => { a with incoming := .message (.event id name) }

/-- What takes the place of each of these arrivals. -/
def withoutKeys : Matcher → List Arrival → List (List Arrival)
  | _, [] => []
  | m, a :: arrivals => a.asEvents m :: withoutKeys (m.hear a.incoming) arrivals

/-- The replies to all that took the places of some arrivals, if each is answered as the arrival
itself. -/
def repliesTo (groups : List (List Arrival)) (replies : List Reply) : List Reply :=
  (List.zipWith (fun group reply => List.replicate group.length reply) groups replies).flatten

end Arrival

namespace Engine

open Arrival (withoutKeys repliesTo)

/-- Answers messages one after the other. -/
def handleAll : Engine → List Arrival → Option AllAnswered
  | e, [] => some ⟨e, [], []⟩
  | e, a :: arrivals => do
    let x ← e.handle a.host a.incoming a.context
    let rest ← handleAll x.engine arrivals
    pure ⟨rest.engine, x.reply :: rest.replies, x.effects ++ rest.effects⟩

/-- Every program that these messages start halts. -/
def AllHalt : Engine → List Arrival → Prop
  | _, [] => True
  | e, a :: arrivals =>
    (∀ program ∈ e.programs a.incoming,
        (Processor.start e.registry.stack a.context).HaltsOn a.host program) ∧
      ∀ x, e.handle a.host a.incoming a.context = some x → AllHalt x.engine arrivals

variable {e : Engine} {r : Registry} {m m' : Matcher} {host : Host} {context : Option Object}

lemma handleAll_cons (e : Engine) (a : Arrival) (arrivals : List Arrival) :
    e.handleAll (a :: arrivals) =
      (e.handle a.host a.incoming a.context).bind fun x =>
        (x.engine.handleAll arrivals).map fun y =>
          ⟨y.engine, x.reply :: y.replies, x.effects ++ y.effects⟩ := by
  rw [handleAll]
  cases e.handle a.host a.incoming a.context with
  | none => rfl
  | some x =>
    change (x.engine.handleAll arrivals).bind _ = (x.engine.handleAll arrivals).map _
    cases x.engine.handleAll arrivals <;> rfl

lemma handleAll_append (e : Engine) (arrivals more : List Arrival) :
    e.handleAll (arrivals ++ more) =
      (e.handleAll arrivals).bind fun x =>
        (x.engine.handleAll more).map fun y =>
          ⟨y.engine, x.replies ++ y.replies, x.effects ++ y.effects⟩ := by
  induction arrivals generalizing e with
  | nil => exact Option.map_id'.symm
  | cons a arrivals ih =>
    rw [List.cons_append, handleAll_cons, handleAll_cons]
    cases e.handle a.host a.incoming a.context with
    | none => rfl
    | some x =>
      rw [Option.bind_some, Option.bind_some, ih, Option.bind_map]
      cases x.engine.handleAll arrivals with
      | none => rfl
      | some y =>
        simp only [Option.bind_some, Option.map_map, Function.comp_def, List.cons_append,
          List.append_assoc]

lemma handle_event (e : Engine) (id : UInt64) (name : String) :
    e.handle host (.message (.event id name)) context =
      (e.registry.fire host name context).map fun h =>
        ⟨⟨h.registry, e.matcher⟩, .value id none, h.effects⟩ := by
  change Option.map _ (Option.map _ _) = _
  rw [Option.map_map]
  rfl

lemma handle_key (e : Engine) (id : UInt64) (event : KeyEvent) :
    e.handle host (.key id event) context =
      (fireAll host context id e.registry (e.matcher.feed event).1).map fun h =>
        ⟨⟨h.registry, (e.matcher.feed event).2⟩, .value id none, h.effects⟩ := rfl

lemma handle_matcher {incoming : Incoming} {x : Answered}
    (h : e.handle host incoming context = some x) :
    x.engine.matcher = e.matcher.hear incoming := by
  cases incoming with
  | message m =>
    obtain ⟨y, -, rfl⟩ := Option.map_eq_some_iff.1 h
    rfl
  | key id event =>
    rw [handle_key] at h
    obtain ⟨y, -, rfl⟩ := Option.map_eq_some_iff.1 h
    rfl

/-! ### Events in the places of keys -/

lemma handleAll_events (a : Arrival) (id : UInt64) (names : List String) :
    handleAll ⟨r, m⟩ (names.map fun name => { a with incoming := .message (.event id name) }) =
      (fireAll a.host a.context id r names).map fun h =>
        ⟨⟨h.registry, m⟩, List.replicate names.length (.value id none), h.effects⟩ := by
  induction names generalizing r with
  | nil => rfl
  | cons name names ih =>
    rw [List.map_cons, handleAll_cons, handle_event, fireAll_cons]
    cases r.fire a.host name a.context with
    | none => rfl
    | some x =>
      simp only [Option.map_some, Option.bind_some, ih, Option.map_map]
      rfl

lemma handleAll_asEvents (r : Registry) (m m' : Matcher) (a : Arrival) :
    handleAll ⟨r, m'⟩ (a.asEvents m) =
      (handle a.host ⟨r, m⟩ a.incoming a.context).map fun x =>
        ⟨⟨x.engine.registry, m'⟩, List.replicate (a.asEvents m).length x.reply, x.effects⟩ := by
  obtain ⟨incoming, context, host⟩ := a
  cases incoming with
  | message message =>
    change handleAll ⟨r, m'⟩ [_] = Option.map _ (Option.map _ _)
    rw [handleAll_cons, Option.map_map]
    change (Option.map _ (r.process host (stamp context message) context)).bind _ = _
    cases r.process host (stamp context message) context with
    | none => rfl
    | some x => simp [handleAll, Arrival.asEvents]
  | key id event =>
    have hevents := handleAll_events (r := r) (m := m') ⟨.key id event, context, host⟩ id
      (m.feed event).1
    rw [handle_key, Option.map_map]
    simp only [Arrival.asEvents, List.length_map]
    exact hevents

lemma handleAll_withoutKeys (r : Registry) (m m' : Matcher) (arrivals : List Arrival) :
    handleAll ⟨r, m'⟩ (withoutKeys m arrivals).flatten =
      (handleAll ⟨r, m⟩ arrivals).map fun x =>
        ⟨⟨x.engine.registry, m'⟩, repliesTo (withoutKeys m arrivals) x.replies, x.effects⟩ := by
  induction arrivals generalizing r m with
  | nil => rfl
  | cons a arrivals ih =>
    rw [withoutKeys, List.flatten_cons, handleAll_append, handleAll_asEvents, handleAll_cons]
    cases hx : handle a.host ⟨r, m⟩ a.incoming a.context with
    | none => rfl
    | some x =>
      have hm : x.engine = ⟨x.engine.registry, m.hear a.incoming⟩ := by
        rw [← handle_matcher hx]
      have hrest := ih x.engine.registry (m.hear a.incoming)
      rw [← hm] at hrest
      simp only [Option.map_some, Option.bind_some, hrest, Option.map_map]
      rfl

lemma length_replies {arrivals : List Arrival} {x : AllAnswered}
    (h : e.handleAll arrivals = some x) : x.replies.length = arrivals.length := by
  induction arrivals generalizing e x with
  | nil =>
    cases h
    rfl
  | cons a arrivals ih =>
    rw [handleAll_cons] at h
    obtain ⟨y, -, h⟩ := Option.bind_eq_some_iff.1 h
    obtain ⟨z, hz, rfl⟩ := Option.map_eq_some_iff.1 h
    rw [List.length_cons, List.length_cons, ih hz]

lemma reply_key {arrivals : List Arrival} {x : AllAnswered} (h : e.handleAll arrivals = some x)
    {i : Nat} {a : Arrival} {id : UInt64} {event : KeyEvent} (ha : arrivals[i]? = some a)
    (hkey : a.incoming = .key id event) : x.replies[i]? = some (.value id none) := by
  induction arrivals generalizing e x i with
  | nil => cases ha
  | cons b arrivals ih =>
    rw [handleAll_cons] at h
    obtain ⟨y, hy, h⟩ := Option.bind_eq_some_iff.1 h
    obtain ⟨z, hz, rfl⟩ := Option.map_eq_some_iff.1 h
    cases i with
    | zero =>
      cases ha
      rw [hkey, handle_key] at hy
      obtain ⟨w, -, rfl⟩ := Option.map_eq_some_iff.1 hy
      rfl
    | succ i => exact ih hz ha

lemma handleAll_isSome_iff (h : e.Reachable) (arrivals : List Arrival) :
    (e.handleAll arrivals).isSome ↔ e.AllHalt arrivals := by
  induction arrivals generalizing e with
  | nil => exact iff_of_true rfl trivial
  | cons a arrivals ih =>
    rw [handleAll_cons, AllHalt, ← handle_isSome_iff h]
    cases hx : e.handle a.host a.incoming a.context with
    | none => simp
    | some x => simpa using ih (h.handle hx)

/-- An engine does with keys what it does with the events of the names that they complete: the
registry is the same in the end, and what was done; every other message gets the same reply. A key
is answered under its own number, with no value. There is an answer exactly if all programs that
are started halt. -/
theorem keys_act_as_events (e : Engine) (arrivals : List Arrival) :
    (e.handleAll (withoutKeys e.matcher arrivals).flatten =
      (e.handleAll arrivals).map fun x =>
        ⟨⟨x.engine.registry, e.matcher⟩, repliesTo (withoutKeys e.matcher arrivals) x.replies,
          x.effects⟩) ∧
      (∀ x, e.handleAll arrivals = some x →
        x.replies.length = arrivals.length ∧
          ∀ (i : Nat) (a : Arrival) (id : UInt64) (event : KeyEvent),
            arrivals[i]? = some a → a.incoming = .key id event →
              x.replies[i]? = some (.value id none)) ∧
      (e.Reachable → ((e.handleAll arrivals).isSome ↔ e.AllHalt arrivals)) := by
  refine ⟨handleAll_withoutKeys e.registry e.matcher e.matcher arrivals, ?_, ?_⟩
  · intro x hx
    refine ⟨length_replies hx, ?_⟩
    intro i a id event ha hkey
    exact reply_key hx ha hkey
  · intro h
    exact handleAll_isSome_iff h arrivals

/-- A key that is let go completes the combo of an event whose transaction asks for the end; an
event that is bound to nothing comes in meanwhile. -/
theorem keys_act_as_events_completed :
    let t : Transaction := ⟨1, "t", ⟨false, true⟩, none, none, [⟨.special .exit, []⟩]⟩
    let event (id : UInt64) (name : String) : Arrival :=
      ⟨.message (.event id name), none, .silent⟩
    let arrivals : List Arrival :=
      [⟨.key 5 ⟨1, .down⟩, none, .silent⟩, event 6 "x", ⟨.key 7 ⟨1, .up⟩, none, .silent⟩]
    ∃ m, Matcher.empty.add "k" [1] = .ok m ∧
      let e : Engine := ⟨⟨.ofCapacity 0, [("t", t)], [("k", ["t"])], false⟩, m⟩
      let ended : Registry := { e.registry with exitRequested := true }
      e.Reachable ∧ withoutKeys m arrivals = [[], [event 6 "x"], [event 7 "k"]] ∧
        e.handleAll [event 6 "x", event 7 "k"] =
          some ⟨⟨ended, m⟩, [.value 6 none, .value 7 none], []⟩ ∧
        (∃ x, e.handleAll arrivals = some x ∧ x.replies.length = 3 ∧
          x.replies[0]? = some (.value 5 none) ∧ x.replies[2]? = some (.value 7 none)) ∧
        e.AllHalt arrivals := by
  intro t event arrivals
  obtain ⟨m, hm, hdown, hup⟩ : ∃ m, Matcher.empty.add "k" [1] = .ok m ∧
      (m.feed ⟨1, .down⟩).1 = [] ∧ ((m.feed ⟨1, .down⟩).2.feed ⟨1, .up⟩).1 = ["k"] :=
    ⟨_, rfl, by decide, by decide⟩
  have hgroups : withoutKeys m arrivals = [[], [event 6 "x"], [event 7 "k"]] := by
    simp [withoutKeys, Arrival.asEvents, Matcher.hear, arrivals, event, hdown, hup]
  refine ⟨m, hm, ?_⟩
  intro e ended
  have hnew : Reachable ⟨.ofCapacity 0, m⟩ := .addHotkey (.new 0) hm
  have hadded : Reachable ⟨(Registry.ofCapacity 0).addTransaction t, m⟩ :=
    .call hnew (rfl : (Registry.ofCapacity 0).after (.addTransaction t) = some _)
  have h : e.Reachable := .call (c := .register "k" "t") hadded rfl
  obtain ⟨run, hrun, heffects, hends⟩ : ∃ run,
      Processor.run .silent t.statements (.start e.registry.stack none) = some run ∧
        run.effects = [] ∧ run.asksForEnd = true :=
    ⟨_, (Processor.runOn_eq_some_iff
      (p := { Processor.start e.registry.stack none with phase := .running }) (Nat.le_refl 0)).2
        ⟨2, .on rfl (.ended rfl)⟩, rfl, rfl⟩
  have hfire : e.registry.fire .silent "k" none = some ⟨ended, (), []⟩ := by
    have hruns : List.Forall₂
        (fun t run => Processor.run .silent t.statements (.start e.registry.stack none) = some run)
        (["t"].filterMap e.registry.transaction?) [run] := .cons hrun .nil
    have hone := Registry.fireAll_of_runs (rfl : e.registry.stack = .ofCapacity 0) hruns
    simp only [List.any_cons, List.any_nil, List.flatMap_cons, List.flatMap_nil, heffects, hends]
      at hone
    exact hone
  let held := (m.feed ⟨1, .down⟩).2
  have hfirst : e.handle .silent (.key 5 ⟨1, .down⟩) none =
      some ⟨⟨e.registry, held⟩, .value 5 none, []⟩ := by
    rw [handle_key, (hdown : (e.matcher.feed ⟨1, .down⟩).1 = [])]
    rfl
  have hmiddle : handle .silent ⟨e.registry, held⟩ (.message (.event 6 "x")) none =
      some ⟨⟨e.registry, held⟩, .value 6 none, []⟩ := rfl
  have hlast : handle .silent ⟨e.registry, held⟩ (.key 7 ⟨1, .up⟩) none =
      some ⟨⟨ended, (held.feed ⟨1, .up⟩).2⟩, .value 7 none, []⟩ := by
    rw [handle_key, (hup : (held.feed ⟨1, .up⟩).1 = ["k"]), fireAll_cons, hfire]
    rfl
  obtain ⟨x, hx, hregistry, hreplies, heffects⟩ : ∃ x, e.handleAll arrivals = some x ∧
      x.engine.registry = ended ∧ x.replies = [.value 5 none, .value 6 none, .value 7 none] ∧
        x.effects = [] := by
    refine ⟨⟨⟨ended, (held.feed ⟨1, .up⟩).2⟩, _, _⟩, ?_, rfl, rfl, rfl⟩
    simp only [arrivals, event, handleAll_cons, hfirst, hmiddle, hlast, Option.bind_some]
    rfl
  obtain ⟨hevents, hkeys, hhalt⟩ := keys_act_as_events e arrivals
  obtain ⟨hlength, hkey⟩ := hkeys x hx
  have hhalts : e.AllHalt arrivals := (hhalt h).1 (by rw [hx]; rfl)
  refine ⟨h, hgroups, ?_, ⟨x, hx, hlength, hkey 0 _ 5 _ rfl rfl, hkey 2 _ 7 _ rfl rfl⟩, hhalts⟩
  rw [hx, Option.map_some, hregistry, hreplies, heffects, hgroups] at hevents
  exact hevents

end Engine

end TransactionEngine
