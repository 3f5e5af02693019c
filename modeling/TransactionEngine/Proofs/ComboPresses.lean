import TransactionEngine.Proofs.MatcherHistory

/-!
# Pressing a combo

Whoever presses the codes of a registered combo one after the other, and lets the last key go only
after all of them went down, fires that combo and nothing else, whatever the matcher has been
through.
-/

namespace TransactionEngine.Matcher

/-- How often a key was let go. -/
def ups (events : List KeyEvent) : Nat :=
  events.countP fun e => e.state = .up

/-- The events press these codes one after the other, and let go of as many keys. Some key stays
pressed from the first code to the last event, which lets it go. -/
structure Presses (codes : List UInt16) (events : List KeyEvent) : Prop where
  pressed : downs events = codes
  released : ups events = codes.length
  last : events.getLast?.map KeyEvent.state = some .up
  quiet : ∀ s, s <+: events → downs s = [] → ups s = 0
  held : ∀ s, s <+: events → s ≠ events → downs s ≠ [] →
    ups s < (downs s).length

instance (codes : List UInt16) (events : List KeyEvent) : Decidable (Presses codes events) :=
  decidable_of_iff
    (downs events = codes ∧ ups events = codes.length ∧
      events.getLast?.map KeyEvent.state = some .up ∧
      (∀ s ∈ events.inits, downs s = [] → ups s = 0) ∧
      ∀ s ∈ events.inits, s ≠ events → downs s ≠ [] → ups s < (downs s).length)
    ⟨fun ⟨pressed, released, last, quiet, held⟩ =>
      ⟨pressed, released, last, fun s hs => quiet s ((List.mem_inits s events).2 hs),
        fun s hs => held s ((List.mem_inits s events).2 hs)⟩,
      fun h => ⟨h.pressed, h.released, h.last,
        fun s hs => h.quiet s ((List.mem_inits s events).1 hs),
        fun s hs => h.held s ((List.mem_inits s events).1 hs)⟩⟩

variable {m : Matcher} {codes : List UInt16} {events : List KeyEvent}

lemma ups_append (es fs : List KeyEvent) : ups (es ++ fs) = ups es + ups fs :=
  List.countP_append

@[simp] lemma ups_down (code : UInt16) : ups [⟨code, .down⟩] = 0 := rfl

@[simp] lemma ups_up (code : UInt16) : ups [⟨code, .up⟩] = 1 := rfl

@[simp] lemma ups_held (code : UInt16) : ups [⟨code, .held⟩] = 0 := rfl

lemma Presses.ups_lt (h : Presses codes events) {s : List KeyEvent} {e : KeyEvent}
    (hs : s ++ [e] <+: events) (hne : s ++ [e] ≠ events) (he : e.state = .up) :
    ups s + 1 < (downs s).length := by
  obtain ⟨code, state⟩ := e
  cases he
  have hups : ups (s ++ [⟨code, .up⟩]) = ups s + 1 := ups_append s _
  have hdowns : downs (s ++ [⟨code, .up⟩]) = downs s :=
    (downs_append s _).trans (List.append_nil _)
  by_cases hd : downs s = []
  · have hq := h.quiet _ hs (hdowns.trans hd)
    omega
  · have hh := h.held _ hs hne (hdowns ▸ hd)
    rwa [hups, hdowns] at hh

lemma Presses.ups_le (h : Presses codes events) {s : List KeyEvent} (hs : s <+: events)
    (hne : s ≠ events) : ups s ≤ (downs s).length := by
  by_cases hd : downs s = []
  · rw [h.quiet s hs hd]
    exact Nat.zero_le _
  · exact (h.held s hs hne hd).le

lemma Presses.downs_so_far (h : Presses codes events) {s : List KeyEvent} (hs : s <+: events) :
    downs s <+: codes := by
  obtain ⟨rest, rfl⟩ := hs
  rw [← h.pressed, downs_append]
  exact List.prefix_append _ _

lemma Presses.replay_so_far (h : Presses codes events) (hm : m.pressed = 0) (hc : m.cursor = [])
    (hw : ∀ p, p <+: codes → (m.trie.walk p).isSome) {s : List KeyEvent} (hs : s <+: events)
    (hne : s ≠ events) :
    replay feed m s =
      (List.replicate s.length [],
        ⟨m.trie, downs s, (downs s).length - ups s⟩) := by
  induction s using List.reverseRecOn with
  | nil =>
    cases m
    cases hm
    cases hc
    rfl
  | append_singleton s e ih =>
    have hs' : s <+: events := (List.prefix_append s [e]).trans hs
    have hne' : s ≠ events := by
      rintro rfl
      have hl := hs.length_le
      rw [List.length_append, List.length_singleton] at hl
      omega
    have hle := h.ups_le hs' hne'
    rw [replay_concat, ih hs' hne', downs_append, ups_append, List.length_append,
      List.length_singleton, List.replicate_succ']
    obtain ⟨code, state⟩ := e
    cases state with
    | down =>
      have hp := h.downs_so_far hs
      rw [downs_append, downs_down] at hp
      rw [feed_down, downs_down, ups_down, List.length_append, List.length_singleton]
      dsimp only
      rw [if_pos (hw _ hp)]
      congr 2
      omega
    | up =>
      have hlt := h.ups_lt hs hne rfl
      rw [feed_up_of_held (by dsimp only; omega), downs_up, ups_up, List.append_nil]
      rfl
    | held =>
      rw [feed_held, downs_held, ups_held, List.append_nil]
      rfl

/-- Pressing a registered combo fires it with the last event and nothing before, from every state in
which no key counts as pressed; nothing is pressed then, and the combos are as they were. -/
theorem registered_combo_fires {calls : List Call} {c : Combo}
    (hidle : (afterAll .empty calls).pressed = 0)
    (hc : (registered calls).lookup codes = some c) (h : Presses codes events) :
    replay feed (afterAll .empty calls) events =
      (List.replicate (events.length - 1) [] ++ [[c.name]],
        ⟨(afterAll .empty calls).trie, [], 0⟩) := by
  have hkept := kept_afterAll calls
  obtain ⟨last, hlast, hup⟩ := Option.map_eq_some_iff.1 h.last
  obtain ⟨init, rfl⟩ : ∃ init, events = init ++ [last] :=
    List.getLast?_eq_some_iff.1 hlast
  obtain ⟨code, state⟩ := last
  cases hup
  have hw (p : List UInt16) (hp : p <+: codes) : ((afterAll .empty calls).trie.walk p).isSome :=
    (hkept.follows.walk_isSome_iff p).2
      (.inr ⟨codes, hp, Finmap.mem_iff.2 ⟨c, hc⟩⟩)
  have hinit := h.replay_so_far hidle (hkept.idle hidle) hw (List.prefix_append init _)
    (fun he => by simpa using congrArg List.length he)
  have hdowns : downs init = codes := by
    rw [← h.pressed, downs_append, downs_up, List.append_nil]
  have hups : ups init + 1 = codes.length := by
    rw [← h.released, ups_append, ups_up]
  rw [replay_concat, hinit, feed_up_of_last (by dsimp only; rw [hdowns]; omega)]
  dsimp only
  have hcombo : (((afterAll .empty calls).trie.walk codes).bind Trie.combo) = some c :=
    (hkept.follows.lookup codes).trans hc
  rw [hdowns, hcombo, List.length_append, List.length_singleton, Nat.add_sub_cancel,
    show codes.length - ups init - 1 = 0 by omega]
  rfl

/-- A combo that extends another one, pressed with an early release and keys that repeat, after
presses that came to nothing. -/
theorem registered_combo_fires_extension :
    let calls := [Call.add "short" [1, 300], .add "long" [1, 300, 2], .feed ⟨4, .up⟩,
      .feed ⟨1, .down⟩, .feed ⟨5, .down⟩, .remove [1, 300], .feed ⟨5, .up⟩, .feed ⟨5, .up⟩,
      .add "short" [1, 300]]
    let events : List KeyEvent := [⟨7, .held⟩, ⟨1, .down⟩, ⟨1, .held⟩, ⟨300, .down⟩, ⟨7, .up⟩,
      ⟨2, .down⟩, ⟨2, .up⟩, ⟨2, .held⟩, ⟨1, .up⟩]
    (afterAll .empty calls).pressed = 0 ∧
      (registered calls).lookup [1, 300, 2] = some ⟨"long", [1, 300, 2]⟩ ∧
      Presses [1, 300, 2] events ∧
      replay feed (afterAll .empty calls) events =
        ([[], [], [], [], [], [], [], [], ["long"]], ⟨(afterAll .empty calls).trie, [], 0⟩) := by
  intro calls events
  have hidle : (afterAll .empty calls).pressed = 0 := by decide
  have hc : (registered calls).lookup [1, 300, 2] = some ⟨"long", [1, 300, 2]⟩ := by decide
  have h : Presses [1, 300, 2] events := by decide
  exact ⟨hidle, hc, h, registered_combo_fires hidle hc h⟩

end TransactionEngine.Matcher
