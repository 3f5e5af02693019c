import TransactionEngine.Engine
import TransactionEngine.Proofs.RegistryHistory

/-!
# Which messages are answered

An engine answers a message if and only if each program that the message starts halts, and a
program halts if and only if it never comes to a jump over no statement.
-/

namespace TransactionEngine

/-- Running the program from the processor halts after finitely many steps. -/
def Processor.HaltsOn (host : Host) (program : List Statement) (p : Processor) : Prop :=
  ∃ n r, Halts program (List.replicate n host) { p with phase := .running } r

/-- The programs that an event starts, one after the other. -/
def Registry.programs (r : Registry) (event : String) : List (List Statement) :=
  (r.bound event).filterMap fun name => (r.transaction? name).map Transaction.statements

namespace Engine

/-- The programs that a message starts, one after the other. -/
def programs (e : Engine) : Incoming → List (List Statement)
  | .message (.transaction t) => if t.flags.exec then [t.statements] else []
  | .message (.event _ name) => e.registry.programs name
  | .key _ event => (e.matcher.feed event).1.flatMap e.registry.programs

/-- The engine can have come from a new one by messages and by calls to its parts. -/
inductive Reachable : Engine → Prop
  | new (capacity : Nat) : Reachable ⟨.ofCapacity capacity, .empty⟩
  | ofConfig {c : Config} {e : Engine} (h : ofConfig c = .ok e) : Reachable e
  | handle {e : Engine} {host : Host} {incoming : Incoming} {context : Option Object} {a : Answered}
    (h : Reachable e) (ha : e.handle host incoming context = some a) : Reachable a.engine
  | call {e : Engine} {c : Registry.Call} {r : Registry} (h : Reachable e)
    (hc : e.registry.after c = some r) : Reachable { e with registry := r }
  | addHotkey {e : Engine} {name : String} {codes : List UInt16} {m : Matcher} (h : Reachable e)
    (hm : e.matcher.add name codes = .ok m) : Reachable { e with matcher := m }
  | removeHotkey {e : Engine} {codes : List UInt16} {m : Matcher} (h : Reachable e)
    (hm : e.matcher.remove codes = .ok m) : Reachable { e with matcher := m }

end Engine

namespace Processor

variable {host : Host} {program : List Statement} {p : Processor}

lemma run_isSome_iff (hp : p.stack.Framed) :
    (p.run host program).isSome ↔ p.HaltsOn host program := by
  have h (r : Run) : p.run host program = some r ↔
      ∃ n, Halts program (List.replicate n host) { p with phase := .running } r :=
    runOn_eq_some_iff (p := { p with phase := .running }) hp
  rw [Option.isSome_iff_exists]
  constructor
  · rintro ⟨r, hr⟩
    obtain ⟨n, hn⟩ := (h r).1 hr
    exact ⟨n, r, hn⟩
  · rintro ⟨n, r, hn⟩
    exact ⟨r, (h r).2 ⟨n, hn⟩⟩

theorem haltsOn_iff (hp : p.stack.Framed) :
    p.HaltsOn host program ↔
      ¬∃ q, Reaches host program { p with phase := .running } q ∧ Stuck program q := by
  have h : p.run host program = none ↔
      ∃ q, Reaches host program { p with phase := .running } q ∧ Stuck program q :=
    runOn_eq_none_iff (p := { p with phase := .running }) hp
  rw [← run_isSome_iff hp, ← h, Option.isSome_iff_ne_none]

end Processor

open Processor (HaltsOn)

variable {host : Host} {context : Option Object} {capacity : Nat}

namespace Registry

variable {r : Registry}

lemma execute_isSome_iff (program : List Statement) :
    (r.execute host program context).isSome ↔
      (Processor.start r.stack context).HaltsOn host program := by
  unfold execute
  rw [Option.isSome_map]
  exact Processor.run_isSome_iff (Stack.framed_startFrame r.stack)

lemma fireAll_isSome_iff (hr : r.stack = .ofCapacity capacity) (names : List String) :
    (fireAll host context r names).isSome ↔
      ∀ program ∈ names.filterMap fun name => (r.transaction? name).map Transaction.statements,
        (Processor.start r.stack context).HaltsOn host program := by
  induction names generalizing r with
  | nil => simp [fireAll]
  | cons name names ih =>
    cases ht : r.transaction? name with
    | none =>
      rw [fireAll, ht, List.filterMap_cons_none (by rw [ht]; rfl)]
      exact ih hr
    | some t =>
      rw [fireAll_cons ht, List.filterMap_cons_some (by rw [ht]; rfl), List.forall_mem_cons,
        ← execute_isSome_iff]
      cases hx : r.execute host t.statements context with
      | none => simp
      | some x =>
        have he := execute_registry hr hx
        have hrest := ih (r := { r with exitRequested := x.registry.exitRequested }) hr
        rw [← he] at hrest
        rw [Option.bind_some, Option.isSome_map, hrest, Option.isSome_some, eq_self, true_and, he]
        rfl

lemma fire_isSome_iff (hr : r.stack = .ofCapacity capacity) (event : String) :
    (fire host r event context).isSome ↔
      ∀ program ∈ r.programs event, (Processor.start r.stack context).HaltsOn host program :=
  fireAll_isSome_iff hr (r.bound event)

end Registry

/-! ### Engines -/

namespace Engine

lemma fireAll_cons (id : UInt64) (r : Registry) (event : String) (events : List String) :
    fireAll host context id r (event :: events) =
      (r.fire host event context).bind fun x =>
        (fireAll host context id x.registry events).map fun y =>
          { y with effects := x.effects ++ y.effects } := by
  have hp : r.process host (.event id event) context =
      (r.fire host event context).map fun h => { h with answer := .value id none } := rfl
  rw [fireAll, hp]
  cases r.fire host event context with
  | none => rfl
  | some x =>
    change (fireAll host context id x.registry events).bind _ =
      (fireAll host context id x.registry events).map _
    cases fireAll host context id x.registry events <;> rfl

lemma fireAll_registry {id : UInt64} {r : Registry} {events : List String} {x : Handled Unit}
    (hr : r.stack = .ofCapacity capacity) (h : fireAll host context id r events = some x) :
    x.registry = { r with exitRequested := x.registry.exitRequested } := by
  induction events generalizing r x with
  | nil =>
    cases h
    rfl
  | cons event events ih =>
    rw [fireAll_cons] at h
    obtain ⟨y, hy, h⟩ := Option.bind_eq_some_iff.1 h
    obtain ⟨z, hz, rfl⟩ := Option.map_eq_some_iff.1 h
    have he := Registry.fireAll_registry hr hy
    have hs : y.registry.stack = .ofCapacity capacity := by rw [he, hr]
    dsimp only
    rw [ih hs hz, he]

lemma Reachable.stack {e : Engine} (h : e.Reachable) :
    ∃ capacity, e.registry.stack = .ofCapacity capacity := by
  induction h with
  | new capacity => exact ⟨capacity, rfl⟩
  | ofConfig h =>
    obtain ⟨m, -, h⟩ := ok_of_bind h
    cases h
    exact ⟨_, rfl⟩
  | @handle e host incoming context a h ha ih =>
    obtain ⟨capacity, hs⟩ := ih
    cases incoming with
    | message m =>
      obtain ⟨x, hx, rfl⟩ := Option.map_eq_some_iff.1 ha
      exact ⟨capacity, Registry.process_stack hs hx⟩
    | key id event =>
      obtain ⟨x, hx, rfl⟩ := Option.map_eq_some_iff.1 ha
      exact ⟨capacity, by rw [fireAll_registry hs hx, hs]⟩
  | call h hc ih =>
    obtain ⟨capacity, hs⟩ := ih
    exact ⟨capacity, Registry.after_stack hs hc⟩
  | addHotkey h hm ih => exact ih
  | removeHotkey h hm ih => exact ih

lemma processTransaction_isSome_iff (r : Registry) (t : Transaction) :
    (r.processTransaction host t context).isSome ↔
      ∀ program ∈ if t.flags.exec then [t.statements] else [],
        (Processor.start r.stack context).HaltsOn host program := by
  unfold Registry.processTransaction Flags.isEmpty
  by_cases hx : t.flags.exec
  · simp [hx, Registry.execute_isSome_iff]
  · by_cases hg : t.flags.register <;> simp [hx, hg]

lemma fireAll_isSome_iff {r : Registry} (hr : r.stack = .ofCapacity capacity) (id : UInt64)
    (events : List String) :
    (fireAll host context id r events).isSome ↔
      ∀ program ∈ events.flatMap r.programs,
        (Processor.start r.stack context).HaltsOn host program := by
  induction events generalizing r with
  | nil => simp [fireAll]
  | cons event events ih =>
    rw [fireAll_cons, List.flatMap_cons, List.forall_mem_append, ← Registry.fire_isSome_iff hr]
    cases hx : r.fire host event context with
    | none => simp
    | some x =>
      have he := Registry.fireAll_registry hr hx
      have hrest := ih (r := { r with exitRequested := x.registry.exitRequested }) hr
      rw [← he] at hrest
      rw [Option.bind_some, Option.isSome_map, hrest, Option.isSome_some, eq_self, true_and, he]
      rfl

lemma handle_isSome_iff {e : Engine} (h : e.Reachable) (incoming : Incoming) :
    (e.handle host incoming context).isSome ↔
      ∀ program ∈ e.programs incoming,
        (Processor.start e.registry.stack context).HaltsOn host program := by
  obtain ⟨capacity, hs⟩ := h.stack
  match incoming with
  | .message (.transaction t) =>
    change (Option.map _ (Option.map _ _)).isSome ↔ _
    rw [Option.isSome_map, Option.isSome_map]
    exact processTransaction_isSome_iff e.registry _
  | .message (.event id name) =>
    change (Option.map _ (Option.map _ _)).isSome ↔ _
    rw [Option.isSome_map, Option.isSome_map]
    exact Registry.fire_isSome_iff hs name
  | .key id event =>
    change (Option.map _ _).isSome ↔ _
    rw [Option.isSome_map]
    exact fireAll_isSome_iff hs id _

/-- A message is answered exactly when all programs that it starts halt, which they do exactly when
none of them comes to a jump over no statement. -/
theorem answered_iff_no_jump_over_nothing {e : Engine} (h : e.Reachable) (host : Host)
    (incoming : Incoming) (context : Option Object) :
    let p := Processor.start e.registry.stack context
    ((e.handle host incoming context).isSome ↔
        ∀ program ∈ e.programs incoming, p.HaltsOn host program) ∧
      ∀ program ∈ e.programs incoming, p.HaltsOn host program ↔
        ¬∃ q, Processor.Reaches host program { p with phase := .running } q ∧ q.Stuck program := by
  intro p
  refine ⟨handle_isSome_iff h incoming, ?_⟩
  intro program _
  exact Processor.haltsOn_iff (Stack.framed_startFrame e.registry.stack)

/-- A program with a jump that depends on what it has pushed before. -/
theorem answered_iff_no_jump_over_nothing_computed :
    let e : Engine := ⟨.ofCapacity 16, .empty⟩
    let program : List Statement :=
      [⟨.special .push, [.direct (.int 1), .direct (.int 1)]⟩, ⟨.special .jump, [.position (-1)]⟩]
    let incoming : Incoming := .message (.transaction ⟨1, "t", ⟨true, false⟩, none, none, program⟩)
    let p := Processor.start e.registry.stack none
    e.Reachable ∧
      ((e.handle .silent incoming none).isSome ↔
        ∀ program ∈ e.programs incoming, p.HaltsOn .silent program) ∧
      ∀ program ∈ e.programs incoming, p.HaltsOn .silent program ↔
        ¬∃ q, Processor.Reaches .silent program { p with phase := .running } q ∧ q.Stuck program := by
  intro e program incoming p
  have h : e.Reachable := .new 16
  exact ⟨h, answered_iff_no_jump_over_nothing h .silent incoming none⟩

/-- A new engine never answers a transaction that jumps over no statement. -/
theorem jump_over_nothing_unanswered :
    let e : Engine := ⟨.ofCapacity 16, .empty⟩
    let t : Transaction :=
      ⟨1, "", ⟨true, false⟩, none, none, [⟨.special .jump, [.direct (.int 0)]⟩]⟩
    e.Reachable ∧ e.handle .silent (.message (.transaction t)) none = none := by
  intro e t
  have h : e.Reachable := .new 16
  refine ⟨h, Option.not_isSome_iff_eq_none.1 ?_⟩
  rw [handle_isSome_iff h]
  intro hall
  have hp := hall t.statements List.mem_cons_self
  rw [Processor.haltsOn_iff (Stack.framed_startFrame e.registry.stack)] at hp
  exact hp ⟨_, .refl _, rfl, _, rfl, .jump rfl⟩

end Engine

end TransactionEngine
