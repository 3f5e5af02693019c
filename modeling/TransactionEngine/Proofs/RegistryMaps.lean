import TransactionEngine.Proofs.RegistryHistory

/-!
# The two maps of a registry

What each call makes of the transactions and of the bindings, and what holds of both in every
registry that calls have made: a transaction stands under its own name, and an event that is bound
at all is bound to at least one name, and to none twice.
-/

namespace TransactionEngine.Registry

variable {host : Host} {context : Option Object} {capacity : Nat} {r u : Registry}

/-- A list with one more name, which comes last unless it is in the list. -/
def enlist (names : List String) (name : String) : List String :=
  if name ∈ names then names else names ++ [name]

lemma nodup_enlist {names : List String} (h : names.Nodup) (name : String) :
    (enlist names name).Nodup := by
  unfold enlist
  by_cases hn : name ∈ names
  · rwa [if_pos hn]
  · rw [if_neg hn]
    refine List.nodup_append.2 ⟨h, by simp, ?_⟩
    intro a ha b hb hab
    rw [hab, List.mem_singleton.1 hb] at ha
    exact hn ha

lemma mem_enlist (names : List String) (name : String) : name ∈ enlist names name := by
  unfold enlist
  by_cases hn : name ∈ names
  · rwa [if_pos hn]
  · rw [if_neg hn]
    exact List.mem_append_right names (List.mem_singleton_self name)

lemma transaction?_addTransaction (r : Registry) (t : Transaction) (name : String) :
    (r.addTransaction t).transaction? name = if name = t.name then some t else r.transaction? name :=
  Dictionary.get?_set r.transactions t.name name t

lemma bound_set (r : Registry) (event e : String) (names : List String) :
    bound { r with bindings := r.bindings.set event names } e =
      if e = event then names else r.bound e := by
  unfold bound
  rw [Dictionary.get?_set]
  by_cases he : e = event
  · rw [if_pos he, if_pos he]
    rfl
  · rw [if_neg he, if_neg he]

lemma bound_erase (r : Registry) (event e : String) :
    bound { r with bindings := r.bindings.erase event } e =
      if e = event then [] else r.bound e := by
  unfold bound
  rw [Dictionary.get?_erase]
  by_cases he : e = event
  · rw [if_pos he, if_pos he]
    rfl
  · rw [if_neg he, if_neg he]

lemma register_known {event name : String} (h : r.transaction? name ≠ none) :
    r.register event name =
      .ok { r with bindings := r.bindings.set event (enlist (r.bound event) name) } := by
  unfold register enlist
  rw [if_neg (by simpa using h)]
  by_cases hn : name ∈ r.bound event
  · simp [hn]
  · simp [hn]

lemma register_unknown {name : String} (h : r.transaction? name = none) (event : String) :
    r.register event name = .error (.unknownTransaction name) := by
  unfold register
  rw [h]
  rfl

lemma unregisterEvent_bound {event : String} (h : r.bindings.get? event ≠ none) :
    r.unregisterEvent event = .ok { r with bindings := r.bindings.erase event } := by
  unfold unregisterEvent
  rw [if_neg (by simpa using h)]

lemma unregisterEvent_unbound {event : String} (h : r.bindings.get? event = none) :
    r.unregisterEvent event = .error (.unknownEvent event) := by
  unfold unregisterEvent
  rw [h]
  rfl

lemma unregisterTransaction_known {name : String} (h : r.transaction? name ≠ none) :
    r.unregisterTransaction name = .ok { r with transactions := r.transactions.erase name } := by
  unfold unregisterTransaction
  rw [if_neg (by simpa using h)]

lemma unregisterTransaction_unknown {name : String} (h : r.transaction? name = none) :
    r.unregisterTransaction name = .error (.unknownTransaction name) := by
  unfold unregisterTransaction
  rw [h]
  rfl

lemma eq_of_register {event name : String} (h : r.register event name = .ok u) :
    u = { r with bindings := r.bindings.set event (enlist (r.bound event) name) } := by
  by_cases hn : r.transaction? name = none
  · rw [register_unknown hn] at h
    cases h
  · rw [register_known hn] at h
    exact (Except.ok.inj h).symm

lemma eq_of_unregisterEvent {event : String} (h : r.unregisterEvent event = .ok u) :
    u = { r with bindings := r.bindings.erase event } := by
  by_cases hb : r.bindings.get? event = none
  · rw [unregisterEvent_unbound hb] at h
    cases h
  · rw [unregisterEvent_bound hb] at h
    exact (Except.ok.inj h).symm

lemma eq_of_unregisterTransaction {name : String} (h : r.unregisterTransaction name = .ok u) :
    u = { r with transactions := r.transactions.erase name } := by
  by_cases hn : r.transaction? name = none
  · rw [unregisterTransaction_unknown hn] at h
    cases h
  · rw [unregisterTransaction_known hn] at h
    exact (Except.ok.inj h).symm

/-- The registry with a transaction under its name, and bound to its event if it has one. -/
def kept (r : Registry) (t : Transaction) : Registry :=
  { r with
    transactions := r.transactions.set t.name t
    bindings :=
      match t.event with
      | none => r.bindings
      | some event => r.bindings.set event (enlist (r.bound event) t.name) }

lemma register_added (r : Registry) (t : Transaction) (event : String) :
    (r.addTransaction t).register event t.name =
      .ok { r.addTransaction t with
        bindings := r.bindings.set event (enlist (r.bound event) t.name) } := by
  have hknown : (r.addTransaction t).transaction? t.name ≠ none := by
    rw [transaction?_addTransaction, if_pos rfl]
    exact Option.some_ne_none t
  exact register_known hknown

lemma keep_eq (r : Registry) (t : Transaction) : r.keep t = .ok (r.kept t) := by
  unfold keep kept
  cases t.event with
  | none => rfl
  | some event => exact register_added r t event

lemma keepAfter_eq (x : Handled (Option Value)) (t : Transaction) :
    keepAfter x t = ⟨x.registry.kept t, .ok x.answer, x.effects⟩ := by
  unfold keepAfter
  rw [keep_eq]

lemma transaction?_kept (r : Registry) (t : Transaction) (name : String) :
    (r.kept t).transaction? name = if name = t.name then some t else r.transaction? name :=
  transaction?_addTransaction r t name

lemma bindings_kept (r : Registry) (t : Transaction) (event : String) :
    (r.kept t).bindings.get? event =
      if t.event = some event then some (enlist (r.bound event) t.name)
      else r.bindings.get? event := by
  unfold kept
  cases t.event with
  | none => rfl
  | some own =>
    dsimp only
    rw [Dictionary.get?_set]
    by_cases he : event = own
    · rw [if_pos he, if_pos (congrArg some he.symm), he]
    · rw [if_neg he, if_neg fun h => he (Option.some.inj h).symm]

lemma bound_kept (r : Registry) (t : Transaction) (event : String) :
    (r.kept t).bound event =
      if t.event = some event then enlist (r.bound event) t.name else r.bound event := by
  change ((r.kept t).bindings.get? event).getD [] = _
  rw [bindings_kept]
  by_cases he : t.event = some event
  · rw [if_pos he, if_pos he]
    rfl
  · rw [if_neg he, if_neg he]
    rfl

/-! ### Messages -/

/-- A program that fails leaves the registry as it was; after any other only the wish to end may be
new. -/
lemma execute_eq (hr : r.stack = .ofCapacity capacity) (program : List Statement) :
    r.execute host program context =
      (Processor.run host program (.start r.stack context)).map fun run =>
        match run.outcome with
        | .ok halt =>
          ⟨{ r with exitRequested := r.exitRequested || run.processor.exitRequested },
            .ok halt.value, run.effects⟩
        | .error failure => ⟨r, .error failure.error, run.effects⟩ := by
  unfold execute
  cases hrun : Processor.run host program (.start r.stack context) with
  | none => rfl
  | some run =>
    have hc : run.processor.close = r.stack := by
      rw [hr] at hrun ⊢
      exact close_of_run hrun
    rw [Option.map_some, Option.map_some]
    cases run.outcome with
    | ok halt =>
      dsimp only
      rw [hc]
    | error failure =>
      dsimp only
      rw [hc]

/-- What comes of a transaction whose program was run. -/
def settled (r : Registry) (t : Transaction) (run : Run) : Handled Reply :=
  match run.outcome with
  | .ok halt =>
    let u : Registry :=
      { r with exitRequested := r.exitRequested || run.processor.exitRequested }
    ⟨if t.flags.register then u.kept t else u, .value t.id halt.value, run.effects⟩
  | .error failure => ⟨r, .error (some t.id) failure.error, run.effects⟩

theorem process_transaction (hr : r.stack = .ofCapacity capacity) (t : Transaction) :
    r.process host (.transaction t) context =
      if t.flags.isEmpty then some ⟨r, .error (some t.id) (.withoutFlags t.name), []⟩
      else if t.flags.exec then
        (Processor.run host t.statements (.start r.stack context)).map (r.settled t)
      else some ⟨r.kept t, .value t.id none, []⟩ := by
  unfold process processTransaction
  dsimp only
  by_cases he : t.flags.isEmpty
  · rw [if_pos he, if_pos he]
    rfl
  · rw [if_neg he, if_neg he]
    by_cases hx : t.flags.exec
    · rw [if_pos hx, if_pos hx, execute_eq hr, Option.map_map, Option.map_map]
      congr 1
      funext run
      unfold settled
      dsimp only [Function.comp]
      cases run.outcome with
      | error failure => rfl
      | ok halt =>
        dsimp only
        by_cases hg : t.flags.register
        · rw [if_pos hg, if_pos hg, keepAfter_eq]
        · rw [if_neg hg, if_neg hg]
    · rw [if_neg hx, if_neg hx, keepAfter_eq]
      rfl

/-- A transaction that is refused leaves the registry as it was. Another one is kept if it is to
be, and only the wish to end may be new besides. -/
lemma process_transaction_cases (hr : r.stack = .ofCapacity capacity) {t : Transaction}
    {x : Handled Reply} (h : r.process host (.transaction t) context = some x) :
    (x.answer.isError = true ∧ x.registry = r) ∨
      (x.answer.isError = false ∧ ∃ exitRequested,
        x.registry = { (if t.flags.register then r.kept t else r) with exitRequested }) := by
  rw [process_transaction hr] at h
  by_cases he : t.flags.isEmpty
  · rw [if_pos he] at h
    cases h
    exact .inl ⟨rfl, rfl⟩
  · rw [if_neg he] at h
    by_cases hx : t.flags.exec
    · rw [if_pos hx] at h
      obtain ⟨run, -, rfl⟩ := Option.map_eq_some_iff.1 h
      unfold settled
      cases run.outcome with
      | error failure => exact .inl ⟨rfl, rfl⟩
      | ok halt =>
        refine .inr ⟨rfl, r.exitRequested || run.processor.exitRequested, ?_⟩
        dsimp only
        by_cases hg : t.flags.register
        · rw [if_pos hg, if_pos hg]
          rfl
        · rw [if_neg hg, if_neg hg]
    · have hg : t.flags.register = true := by
        unfold Flags.isEmpty at he
        simpa [hx] using he
      rw [if_neg hx] at h
      cases h
      refine .inr ⟨rfl, r.exitRequested, ?_⟩
      rw [if_pos hg]
      rfl

/-- The maps of a registry are in order. -/
structure Tidy (r : Registry) : Prop where
  named : ∀ {name t}, r.transaction? name = some t → t.name = name
  nodup : ∀ {event names}, r.bindings.get? event = some names → names.Nodup
  ne_nil : ∀ {event names}, r.bindings.get? event = some names → names ≠ []

namespace Tidy

lemma ofCapacity (capacity : Nat) : (Registry.ofCapacity capacity).Tidy where
  named h := by cases h
  nodup h := by cases h
  ne_nil h := by cases h

lemma bound_nodup (h : r.Tidy) (event : String) : (r.bound event).Nodup := by
  unfold bound
  cases hg : r.bindings.get? event with
  | none => exact List.nodup_nil
  | some names => exact h.nodup hg

lemma bound_eq_nil_iff (h : r.Tidy) (event : String) :
    r.bound event = [] ↔ r.bindings.get? event = none := by
  unfold bound
  cases hg : r.bindings.get? event with
  | none => simp
  | some names => simpa using h.ne_nil hg

lemma congr (h : r.Tidy) (ht : u.transactions = r.transactions) (hb : u.bindings = r.bindings) :
    u.Tidy where
  named hn := h.named (by unfold transaction? at *; rwa [← ht])
  nodup hn := h.nodup (by rwa [← hb])
  ne_nil hn := h.ne_nil (by rwa [← hb])

lemma addTransaction (h : r.Tidy) (t : Transaction) : (r.addTransaction t).Tidy where
  named {name t'} hn := by
    rw [transaction?_addTransaction] at hn
    by_cases he : name = t.name
    · rw [if_pos he] at hn
      cases hn
      exact he.symm
    · rw [if_neg he] at hn
      exact h.named hn
  nodup := h.nodup
  ne_nil := h.ne_nil

lemma bind (h : r.Tidy) (event name : String) :
    Tidy { r with bindings := r.bindings.set event (enlist (r.bound event) name) } := by
  have hcases {e : String} {names : List String}
      (hn : (r.bindings.set event (enlist (r.bound event) name)).get? e = some names) :
      names = enlist (r.bound event) name ∨ r.bindings.get? e = some names := by
    rw [Dictionary.get?_set] at hn
    by_cases he : e = event
    · rw [if_pos he] at hn
      exact .inl (Option.some.inj hn).symm
    · rw [if_neg he] at hn
      exact .inr hn
  refine ⟨h.named, ?_, ?_⟩
  · intro e names hn
    obtain rfl | hn := hcases hn
    · exact nodup_enlist (h.bound_nodup event) name
    · exact h.nodup hn
  · intro e names hn
    obtain rfl | hn := hcases hn
    · exact List.ne_nil_of_mem (mem_enlist _ name)
    · exact h.ne_nil hn

lemma kept (h : r.Tidy) (t : Transaction) : (r.kept t).Tidy := by
  have ha := h.addTransaction t
  unfold Registry.kept
  cases t.event with
  | none => exact ha
  | some event => exact ha.bind event t.name

lemma register (h : r.Tidy) {event name : String} (hu : r.register event name = .ok u) :
    u.Tidy := by
  rw [eq_of_register hu]
  exact h.bind event name

lemma unregisterEvent (h : r.Tidy) {event : String} (hu : r.unregisterEvent event = .ok u) :
    u.Tidy := by
  rw [eq_of_unregisterEvent hu]
  have hsub {e : String} {names : List String}
      (hn : (r.bindings.erase event).get? e = some names) : r.bindings.get? e = some names := by
    rw [Dictionary.get?_erase] at hn
    by_cases he : e = event
    · rw [if_pos he] at hn
      cases hn
    · rwa [if_neg he] at hn
  exact ⟨h.named, fun hn => h.nodup (hsub hn), fun hn => h.ne_nil (hsub hn)⟩

lemma unregisterTransaction (h : r.Tidy) {name : String}
    (hu : r.unregisterTransaction name = .ok u) : u.Tidy := by
  rw [eq_of_unregisterTransaction hu]
  refine ⟨?_, h.nodup, h.ne_nil⟩
  intro n t hn
  unfold transaction? at hn
  rw [Dictionary.get?_erase] at hn
  by_cases he : n = name
  · rw [if_pos he] at hn
    cases hn
  · rw [if_neg he] at hn
    exact h.named hn

lemma process (h : r.Tidy) (hr : r.stack = .ofCapacity capacity) {m : Message} {x : Handled Reply}
    (hx : r.process host m context = some x) : x.registry.Tidy := by
  cases m with
  | event id name =>
    obtain ⟨y, hy, rfl⟩ := Option.map_eq_some_iff.1 hx
    have he := fireAll_registry hr hy
    exact h.congr (by rw [he]) (by rw [he])
  | transaction t =>
    obtain ⟨-, hu⟩ | ⟨-, exit, hu⟩ := process_transaction_cases hr hx
    · rwa [hu]
    · rw [hu]
      by_cases hg : t.flags.register
      · rw [if_pos hg]
        exact (h.kept t).congr rfl rfl
      · rw [if_neg hg]
        exact h.congr rfl rfl

end Tidy

lemma tidy_of_toOption {x : Except Error Registry} (h : r.Tidy) (hx : ∀ u, x = .ok u → u.Tidy) :
    (x.toOption.getD r).Tidy := by
  cases x with
  | error e => exact h
  | ok u => exact hx u rfl

lemma after_tidy {call : Call} (h : r.Tidy) (hr : r.stack = .ofCapacity capacity)
    (hu : r.after call = some u) : u.Tidy := by
  cases call with
  | process host m context =>
    obtain ⟨x, hx, rfl⟩ := Option.map_eq_some_iff.1 hu
    exact h.process hr hx
  | addTransaction t =>
    cases hu
    exact h.addTransaction t
  | register event name =>
    cases hu
    exact tidy_of_toOption h fun _ hx => h.register hx
  | unregisterEvent event =>
    cases hu
    exact tidy_of_toOption h fun _ hx => h.unregisterEvent hx
  | unregisterTransaction name =>
    cases hu
    exact tidy_of_toOption h fun _ hx => h.unregisterTransaction hx

theorem afterAll_tidy {calls : List Call} (h : r.Tidy) (hr : r.stack = .ofCapacity capacity)
    (hu : r.afterAll calls = some u) : u.Tidy := by
  induction calls generalizing r with
  | nil =>
    cases hu
    exact h
  | cons call calls ih =>
    obtain ⟨v, hv, hu⟩ := Option.bind_eq_some_iff.1 hu
    exact ih (after_tidy h hr hv) (after_stack hr hv) hu

end TransactionEngine.Registry
