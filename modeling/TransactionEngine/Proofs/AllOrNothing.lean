import Mathlib.Data.List.Nodup
import TransactionEngine.Proofs.RegistryMaps

/-!
# Transactions are kept whole or not at all

A transaction is refused if it says neither that it is to be run nor that it is to be kept, or if
its run fails. Then nothing is left of it; otherwise it is kept under its name and bound to its
event, as far as its flags say so.
-/

namespace TransactionEngine.Registry

variable {host : Host} {context : Option Object} {capacity : Nat} {r u : Registry}

/-- The transaction is to be run, and its run fails. -/
def RunFails (host : Host) (context : Option Object) (r : Registry) (t : Transaction) : Prop :=
  t.flags.exec = true ∧ ∃ run failure,
    Processor.run host t.statements (.start r.stack context) = some run ∧
      run.outcome = .error failure

/-- The registry `u` has the same transactions and bindings as `r`, on the same stack. -/
def Unchanged (r u : Registry) : Prop :=
  u.transactions = r.transactions ∧ u.bindings = r.bindings ∧ u.stack = r.stack

/-- The registry `u` differs from `r` in that the transaction stands under its name, and has that
name once among those of its event. -/
structure Added (t : Transaction) (r u : Registry) : Prop where
  transaction : ∀ name,
    u.transaction? name = if name = t.name then some t else r.transaction? name
  other : ∀ event, t.event ≠ some event → u.bindings.get? event = r.bindings.get? event
  bound : ∀ event, t.event = some event →
    u.bound event = if t.name ∈ r.bound event then r.bound event else r.bound event ++ [t.name]
  once : ∀ event, t.event = some event → (u.bound event).count t.name = 1

lemma added_kept (h : r.Tidy) (t : Transaction) : Added t r (r.kept t) := by
  refine ⟨transaction?_kept r t, ?_, ?_, ?_⟩
  · intro event he
    rw [bindings_kept, if_neg he]
  · intro event he
    rw [bound_kept, if_pos he]
    rfl
  · intro event he
    rw [bound_kept, if_pos he]
    exact List.count_eq_one_of_mem (nodup_enlist (h.bound_nodup event) t.name) (mem_enlist _ t.name)

lemma process_isSome (hr : r.stack = .ofCapacity capacity) {t : Transaction}
    (hrun : t.flags.exec = true →
      (Processor.run host t.statements (.start r.stack context)).isSome) :
    (r.process host (.transaction t) context).isSome := by
  rw [process_transaction hr]
  by_cases he : t.flags.isEmpty
  · rw [if_pos he, Option.isSome_some]
  · rw [if_neg he]
    by_cases hx : t.flags.exec
    · rw [if_pos hx, Option.isSome_map, hrun hx]
    · rw [if_neg hx, Option.isSome_some]

lemma settled_isError_iff (r : Registry) (t : Transaction) (run : Run) :
    (r.settled t run).answer.isError = true ↔ ∃ failure, run.outcome = .error failure := by
  unfold settled
  cases run.outcome <;> simp [Reply.isError]

lemma process_isError_iff (hr : r.stack = .ofCapacity capacity) {t : Transaction}
    {x : Handled Reply} (h : r.process host (.transaction t) context = some x) :
    x.answer.isError = true ↔ t.flags.isEmpty = true ∨ RunFails host context r t := by
  rw [process_transaction hr] at h
  by_cases he : t.flags.isEmpty
  · rw [if_pos he] at h
    cases h
    exact ⟨fun _ => .inl he, fun _ => rfl⟩
  · rw [if_neg he] at h
    rw [or_iff_right he]
    by_cases hx : t.flags.exec
    · rw [if_pos hx] at h
      obtain ⟨run, hsome, rfl⟩ := Option.map_eq_some_iff.1 h
      rw [settled_isError_iff]
      constructor
      · rintro ⟨failure, ho⟩
        exact ⟨hx, run, failure, hsome, ho⟩
      · rintro ⟨-, run', failure, hrun', ho⟩
        rw [hsome] at hrun'
        cases hrun'
        exact ⟨failure, ho⟩
    · rw [if_neg hx] at h
      cases h
      refine ⟨fun hno => absurd hno Bool.false_ne_true, ?_⟩
      rintro ⟨hexec, -⟩
      exact absurd hexec hx

lemma process_keeps (hr : r.stack = .ofCapacity capacity) (ht : r.Tidy) {t : Transaction}
    {x : Handled Reply} (h : r.process host (.transaction t) context = some x) :
    (x.answer.isError = true → Unchanged r x.registry) ∧
      (x.answer.isError = false →
        if t.flags.register then Added t r x.registry else Unchanged r x.registry) := by
  obtain ⟨herror, hu⟩ | ⟨herror, exit, hu⟩ := process_transaction_cases hr h
  · rw [hu, herror]
    exact ⟨fun _ => ⟨rfl, rfl, rfl⟩, fun hno => absurd hno.symm Bool.false_ne_true⟩
  · rw [hu, herror]
    refine ⟨fun hno => absurd hno Bool.false_ne_true, ?_⟩
    intro _
    by_cases hg : t.flags.register
    · rw [if_pos hg, if_pos hg]
      obtain ⟨htransaction, hother, hbound, honce⟩ := added_kept ht t
      exact ⟨htransaction, hother, hbound, honce⟩
    · rw [if_neg hg, if_neg hg]
      exact ⟨rfl, rfl, rfl⟩

/-- A transaction whose program halts is answered. The reply is an error exactly if its flags are
empty or its run fails, and then nothing has changed. Otherwise it is kept if it was to be, and
nothing else has changed; binding what was just added never fails. -/
theorem transaction_all_or_nothing {calls : List Call}
    (h : (ofCapacity capacity).afterAll calls = some r) (host : Host) (t : Transaction)
    (context : Option Object)
    (hrun : t.flags.exec = true →
      (Processor.run host t.statements (.start r.stack context)).isSome) :
    (∃ x, r.process host (.transaction t) context = some x ∧
      (x.answer.isError = true ↔ t.flags.isEmpty = true ∨ RunFails host context r t) ∧
      (x.answer.isError = true → Unchanged r x.registry) ∧
      (x.answer.isError = false →
        if t.flags.register then Added t r x.registry else Unchanged r x.registry)) ∧
      ∀ (u : Registry) (event : String), ∃ v, (u.addTransaction t).register event t.name = .ok v := by
  refine ⟨?_, fun u event => ⟨_, register_added u t event⟩⟩
  have hr := afterAll_stack rfl h
  have ht := afterAll_tidy (Tidy.ofCapacity capacity) rfl h
  obtain ⟨x, hx⟩ := Option.isSome_iff_exists.1 (process_isSome hr hrun)
  obtain ⟨hrefused, hkept⟩ := process_keeps hr ht hx
  exact ⟨x, hx, process_isError_iff hr hx, hrefused, hkept⟩

/-- A transaction that jumps out takes the place of another one of its name, which is bound to its
event already. -/
theorem transaction_all_or_nothing_replacing :
    let program : List Statement := [⟨.special .push, []⟩, ⟨.special .jump, [.direct (.int 5)]⟩]
    let t : Transaction := ⟨2, "t", ⟨true, true⟩, none, some "e", program⟩
    let old : Transaction := { t with id := 1, statements := [] }
    let calls : List Call := [.addTransaction old, .register "e" "t"]
    let r : Registry := ⟨.ofCapacity 0, [("t", old)], [("e", ["t"])], false⟩
    (ofCapacity 0).afterAll calls = some r ∧
      (t.flags.exec = true → (Processor.run .silent program (.start r.stack none)).isSome) ∧
      (∃ x, r.process .silent (.transaction t) none = some x ∧
        (x.answer.isError = true ↔ t.flags.isEmpty = true ∨ RunFails .silent none r t) ∧
        (x.answer.isError = true → Unchanged r x.registry) ∧
        (x.answer.isError = false →
          if t.flags.register then Added t r x.registry else Unchanged r x.registry)) ∧
      ∀ (u : Registry) (event : String), ∃ v, (u.addTransaction t).register event t.name = .ok v := by
  intro program t old calls r
  let p : Processor := { Processor.start r.stack none with phase := .running }
  have h : (ofCapacity 0).afterAll calls = some r := rfl
  have hrun (_ : t.flags.exec = true) :
      (Processor.run .silent program (.start r.stack none)).isSome := by
    have hhalts := (Processor.runOn_eq_some_iff (p := p) (Nat.le_refl 0)).2
      ⟨2, .on (rfl : p.step .silent program = _) (.ended rfl)⟩
    exact Option.isSome_iff_exists.2 ⟨_, hhalts⟩
  exact ⟨h, hrun, transaction_all_or_nothing h .silent t none hrun⟩

end TransactionEngine.Registry
