import Mathlib.Data.Finset.Card
import TransactionEngine.Proofs.MatcherHistory

/-!
# Keys that are down and keys that count as pressed

A matcher counts presses and releases, whatever keys they are of. The count is the number of keys
that are down as long as no key is let go that is not down and none goes down again; what the two
differ by is known from the events of these kinds. A combo fires when the count comes to nothing,
and a key may be down then.
-/

namespace TransactionEngine.Matcher

/-- The key went down, and after that it was not let go. -/
def IsDown (code : UInt16) (events : List KeyEvent) : Prop :=
  ∃ before after, events = before ++ ⟨code, .down⟩ :: after ∧ ⟨code, .up⟩ ∉ after

/-- The keys that are down. -/
def keysDown (events : List KeyEvent) : Finset UInt16 :=
  events.foldl (fun keys e =>
    match e.state with
    | .down => insert e.code keys
    | .up => keys.erase e.code
    | .held => keys) ∅

/-- How many keys count as pressed. -/
def counted (events : List KeyEvent) : Nat :=
  events.foldl (fun n e =>
    match e.state with
    | .down => n + 1
    | .up => n - 1
    | .held => n) 0

/-- How many events are of a kind, which may hang on what came before each of them. -/
def tally (kind : List KeyEvent → KeyEvent → Prop) [∀ past e, Decidable (kind past e)]
    (past : List KeyEvent) : List KeyEvent → Nat
  | [] => 0
  | e :: events => (if kind past e then 1 else 0) + tally kind (past ++ [e]) events

/-- A key that is not down is let go, and lowers the count. -/
def IsStray (past : List KeyEvent) (e : KeyEvent) : Prop :=
  e.state = .up ∧ e.code ∉ keysDown past ∧ counted past ≠ 0

/-- A key that is down is let go, and the count is nothing already. -/
def IsLate (past : List KeyEvent) (e : KeyEvent) : Prop :=
  e.state = .up ∧ e.code ∈ keysDown past ∧ counted past = 0

/-- A key that is down goes down. -/
def IsAgain (past : List KeyEvent) (e : KeyEvent) : Prop :=
  e.state = .down ∧ e.code ∈ keysDown past

instance (past : List KeyEvent) (e : KeyEvent) : Decidable (IsStray past e) :=
  inferInstanceAs (Decidable (_ ∧ _))

instance (past : List KeyEvent) (e : KeyEvent) : Decidable (IsLate past e) :=
  inferInstanceAs (Decidable (_ ∧ _))

instance (past : List KeyEvent) (e : KeyEvent) : Decidable (IsAgain past e) :=
  inferInstanceAs (Decidable (_ ∧ _))

variable {events : List KeyEvent}

@[simp] lemma keysDown_down (events : List KeyEvent) (code : UInt16) :
    keysDown (events ++ [⟨code, .down⟩]) = insert code (keysDown events) :=
  List.foldl_concat ..

@[simp] lemma keysDown_up (events : List KeyEvent) (code : UInt16) :
    keysDown (events ++ [⟨code, .up⟩]) = (keysDown events).erase code :=
  List.foldl_concat ..

@[simp] lemma keysDown_held (events : List KeyEvent) (code : UInt16) :
    keysDown (events ++ [⟨code, .held⟩]) = keysDown events :=
  List.foldl_concat ..

@[simp] lemma counted_down (events : List KeyEvent) (code : UInt16) :
    counted (events ++ [⟨code, .down⟩]) = counted events + 1 :=
  List.foldl_concat ..

@[simp] lemma counted_up (events : List KeyEvent) (code : UInt16) :
    counted (events ++ [⟨code, .up⟩]) = counted events - 1 :=
  List.foldl_concat ..

@[simp] lemma counted_held (events : List KeyEvent) (code : UInt16) :
    counted (events ++ [⟨code, .held⟩]) = counted events :=
  List.foldl_concat ..

lemma tally_concat (kind : List KeyEvent → KeyEvent → Prop) [∀ past e, Decidable (kind past e)]
    (past events : List KeyEvent) (e : KeyEvent) :
    tally kind past (events ++ [e]) =
      tally kind past events + if kind (past ++ events) e then 1 else 0 := by
  induction events generalizing past with
  | nil => simp [tally]
  | cons d events ih =>
    rw [List.cons_append, tally, ih, tally, List.append_assoc, List.singleton_append, Nat.add_assoc]

lemma tally_eq_zero {kind : List KeyEvent → KeyEvent → Prop} [∀ past e, Decidable (kind past e)]
    (h : ∀ before e after, events = before ++ e :: after → ¬kind before e) :
    tally kind [] events = 0 := by
  induction events using List.reverseRecOn with
  | nil => rfl
  | append_singleton events e ih =>
    rw [tally_concat, List.nil_append, if_neg (h events e [] rfl), ih]
    intro before d after heq
    exact h before d (after ++ [e]) (by rw [heq, List.append_assoc, List.cons_append])

lemma isDown_concat_iff {code : UInt16} {e : KeyEvent} :
    IsDown code (events ++ [e]) ↔ e = ⟨code, .down⟩ ∨ IsDown code events ∧ e ≠ ⟨code, .up⟩ := by
  constructor
  · rintro ⟨before, after, heq, hup⟩
    rcases List.eq_nil_or_concat after with rfl | ⟨after, last, rfl⟩
    · exact .inl (List.singleton_injective (List.append_inj' heq rfl).2)
    · rw [List.concat_eq_append, ← List.cons_append, ← List.append_assoc] at heq
      obtain ⟨rfl, hlast⟩ := List.append_inj' heq rfl
      obtain rfl : e = last := List.singleton_injective hlast
      rw [List.concat_eq_append, List.mem_append, not_or, List.mem_singleton] at hup
      exact .inr ⟨⟨before, after, rfl, hup.1⟩, fun h => hup.2 h.symm⟩
  · rintro (rfl | ⟨⟨before, after, rfl, hup⟩, he⟩)
    · exact ⟨events, [], rfl, List.not_mem_nil⟩
    · refine ⟨before, after ++ [e], by rw [List.append_assoc, List.cons_append], ?_⟩
      rw [List.mem_append, not_or, List.mem_singleton]
      exact ⟨hup, fun h => he h.symm⟩

lemma mem_keysDown_iff {code : UInt16} : code ∈ keysDown events ↔ IsDown code events := by
  induction events using List.reverseRecOn with
  | nil =>
    refine iff_of_false (Finset.notMem_empty code) ?_
    rintro ⟨before, after, heq, -⟩
    cases before <;> cases heq
  | append_singleton events e ih =>
    obtain ⟨other, state⟩ := e
    rw [isDown_concat_iff, ← ih]
    cases state with
    | down => simp [eq_comm]
    | up => simp [and_comm, eq_comm]
    | held => simp

lemma keysDown_eq_empty_iff : keysDown events = ∅ ↔ ∀ code, ¬IsDown code events := by
  simp only [Finset.eq_empty_iff_forall_notMem, mem_keysDown_iff]

/-! ### What the count is worth -/

/-- What the count and the number of keys that are down differ by. -/
lemma counted_add_strays (events : List KeyEvent) :
    counted events + tally IsStray [] events =
      (keysDown events).card + (tally IsAgain [] events + tally IsLate [] events) := by
  -- An event of none of the three kinds does the same to the count and to the number of keys that
  -- are down, and an event of one of them is counted on the side on which it does less.
  induction events using List.reverseRecOn with
  | nil => rfl
  | append_singleton events e ih =>
    obtain ⟨code, state⟩ := e
    simp only [tally_concat, List.nil_append]
    cases state with
    | down =>
      have hcard := Finset.card_insert_eq_ite (a := code) (s := keysDown events)
      simp only [counted_down, keysDown_down, IsStray, IsLate, IsAgain, reduceCtorEq, false_and,
        true_and, if_false]
      split_ifs at hcard ⊢ <;> omega
    | up =>
      simp only [counted_up, keysDown_up, IsStray, IsLate, IsAgain, reduceCtorEq, false_and,
        true_and, if_false]
      by_cases hmem : code ∈ keysDown events
      · have hpos := Finset.card_pos.2 ⟨code, hmem⟩
        have hcard := Finset.card_erase_of_mem hmem
        simp only [hmem, not_true, false_and, true_and, if_false]
        split_ifs <;> omega
      · rw [Finset.erase_eq_of_notMem hmem]
        simp only [hmem, not_false_eq_true, false_and, true_and, if_false]
        split_ifs <;> omega
    | held => simpa [IsStray, IsLate, IsAgain] using ih

lemma pressed_replay (t : Trie) (events : List KeyEvent) :
    (replay feed ⟨t, [], 0⟩ events).2.pressed = counted events := by
  induction events using List.reverseRecOn with
  | nil => rfl
  | append_singleton events e ih =>
    obtain ⟨code, state⟩ := e
    rw [replay_concat]
    cases state with
    | down => rw [feed_down, counted_down, ih]
    | up =>
      rw [counted_up, ← ih]
      by_cases hp : 0 < (replay feed ⟨t, [], 0⟩ events).2.pressed - 1
      · rw [feed_up_of_held hp]
      · rw [feed_up_of_last hp]
    | held => rw [feed_held, counted_held, ih]

lemma counted_of_fired {t : Trie} {e : KeyEvent} {name : String}
    (h : name ∈ ((replay feed ⟨t, [], 0⟩ events).2.feed e).1) : counted (events ++ [e]) = 0 := by
  obtain ⟨code, state⟩ := e
  cases state with
  | down => cases h
  | held => cases h
  | up =>
    by_cases hp : 0 < (replay feed ⟨t, [], 0⟩ events).2.pressed - 1
    · rw [feed_up_of_held hp] at h
      cases h
    · rw [counted_up, ← pressed_replay t events]
      omega

/-- When a combo fires every key that went down was let go since, exactly if the releases of keys
that were not down make up for the presses of keys that were down already and for the releases that
came too late to count. So it is if no key that is not down is ever let go. -/
theorem released_when_fired_iff {t : Trie} {e : KeyEvent} {name : String}
    (h : name ∈ ((replay feed ⟨t, [], 0⟩ events).2.feed e).1) :
    ((∀ code, ¬IsDown code (events ++ [e])) ↔
      tally IsStray [] (events ++ [e]) =
        tally IsAgain [] (events ++ [e]) + tally IsLate [] (events ++ [e])) ∧
      ((∀ before code after, events ++ [e] = before ++ ⟨code, .up⟩ :: after → IsDown code before) →
        ∀ code, ¬IsDown code (events ++ [e])) := by
  have hcount := counted_add_strays (events ++ [e])
  rw [counted_of_fired h] at hcount
  rw [← keysDown_eq_empty_iff, ← Finset.card_eq_zero]
  refine ⟨by omega, fun hups => ?_⟩
  have hstray : tally IsStray [] (events ++ [e]) = 0 := by
    refine tally_eq_zero fun before ⟨code, state⟩ after heq hs => ?_
    obtain ⟨rfl, hup, -⟩ := hs
    exact hup (mem_keysDown_iff.2 (hups before code after heq))
  omega

/-- A press of a key that is down already is made up for by the release of one that is not, and keys
that are pressed and let go one after the other need nothing of the kind. -/
theorem released_when_fired_iff_made_up :
    let t := (afterAll .empty [.add "five" [5]]).trie
    let events : List KeyEvent := [⟨1, .down⟩, ⟨1, .down⟩, ⟨5, .down⟩, ⟨5, .up⟩, ⟨1, .up⟩]
    ("five" ∈ ((replay feed ⟨t, [], 0⟩ events).2.feed ⟨9, .up⟩).1 ∧
      ((∀ code, ¬IsDown code (events ++ [⟨9, .up⟩])) ↔
        tally IsStray [] (events ++ [⟨9, .up⟩]) =
          tally IsAgain [] (events ++ [⟨9, .up⟩]) + tally IsLate [] (events ++ [⟨9, .up⟩])) ∧
      tally IsStray [] (events ++ [⟨9, .up⟩]) = 1 ∧
      tally IsAgain [] (events ++ [⟨9, .up⟩]) = 1) ∧
    "five" ∈ ((replay feed ⟨t, [], 0⟩ [⟨5, .down⟩]).2.feed ⟨5, .up⟩).1 ∧
      (∀ before code after, [⟨5, .down⟩] ++ [⟨5, .up⟩] = before ++ ⟨code, .up⟩ :: after →
        IsDown code before) ∧
      ∀ code, ¬IsDown code ([⟨5, .down⟩] ++ [⟨5, .up⟩]) := by
  intro t events
  have hmade : "five" ∈ ((replay feed ⟨t, [], 0⟩ events).2.feed ⟨9, .up⟩).1 := by decide
  have hplain : "five" ∈ ((replay feed ⟨t, [], 0⟩ [⟨5, .down⟩]).2.feed ⟨5, .up⟩).1 := by decide
  have hups : ∀ before code after,
      [⟨5, .down⟩] ++ [⟨5, .up⟩] = before ++ ⟨code, .up⟩ :: after → IsDown code before := by
    intro before code after heq
    match before, heq with
    | [_], heq =>
      cases heq
      exact ⟨[], [], rfl, List.not_mem_nil⟩
    | _ :: _ :: before, heq => cases before <;> cases heq
  exact ⟨⟨hmade, (released_when_fired_iff hmade).1, by decide, by decide⟩, hplain, hups,
    (released_when_fired_iff hplain).2 hups⟩

/-- A combo fires while both of its keys are down: what is let go twice is a key that was never
pressed. -/
theorem combo_fires_before_release :
    let m := afterAll .empty [.add "ab" [1, 2]]
    let events : List KeyEvent := [⟨1, .down⟩, ⟨2, .down⟩, ⟨3, .up⟩]
    ("ab" ∈ ((replay feed ⟨m.trie, [], 0⟩ events).2.feed ⟨3, .up⟩).1) ∧
      IsDown 1 (events ++ [⟨3, .up⟩]) ∧ IsDown 2 (events ++ [⟨3, .up⟩]) := by
  intro m events
  exact ⟨by decide, mem_keysDown_iff.1 (by decide), mem_keysDown_iff.1 (by decide)⟩

end TransactionEngine.Matcher
