import TransactionEngine.Combo.Matcher
import TransactionEngine.Proofs.TrieHistory

/-!
# What a matcher has been through

Combos come and go while keys are pressed. The cursor of a matcher always stands on a path of its
trie and is made of keys that went down one right after the other since no key was pressed, so a
combo fires only for these.
-/

namespace TransactionEngine.Matcher

open Trie (Combos)

/-- What can be asked of a matcher. -/
inductive Call where
  | add (name : String) (codes : List UInt16)
  | remove (codes : List UInt16)
  | feed (e : KeyEvent)

/-- The matcher after a call, which is the same if the call fails. -/
def after (m : Matcher) : Call → Matcher
  | .add name codes => (m.add name codes).toOption.getD m
  | .remove codes => (m.remove codes).toOption.getD m
  | .feed e => (m.feed e).2

def afterAll (m : Matcher) (calls : List Call) : Matcher :=
  calls.foldl after m

/-- What a call makes of the combos that are registered. -/
def register (combos : Combos) : Call → Combos
  | .add name codes =>
    match Combo.ofCodes name codes with
    | .ok c => (combos.perform (.insert c)).2
    | .error _ => combos
  | .remove codes => (combos.perform (.erase codes)).2
  | .feed _ => combos

/-- The combos that are registered after these calls, by their codes. -/
def registered (calls : List Call) : Combos :=
  calls.foldl register ∅

/-- The keys that went down, one after the other. -/
def downs (events : List KeyEvent) : List UInt16 :=
  events.filterMap fun e => if e.state = .down then some e.code else none

def Call.event? : Call → Option KeyEvent
  | .feed e => some e
  | _ => none

/-- The last time that no key counted as pressed was before all of `since`, and after `before`. -/
structure LastIdle (before since : List Call) : Prop where
  idle : (afterAll .empty before).pressed = 0
  held : ∀ s, s <+: since → s ≠ [] → (afterAll .empty (before ++ s)).pressed ≠ 0

variable {m : Matcher} {combos : Combos}

lemma afterAll_concat (m : Matcher) (calls : List Call) (call : Call) :
    m.afterAll (calls ++ [call]) = (m.afterAll calls).after call := by
  unfold afterAll
  rw [List.foldl_concat]

lemma registered_concat (calls : List Call) (call : Call) :
    registered (calls ++ [call]) = register (registered calls) call := by
  unfold registered
  rw [List.foldl_concat]

lemma downs_append (es fs : List KeyEvent) : downs (es ++ fs) = downs es ++ downs fs :=
  List.filterMap_append ..

@[simp] lemma downs_down (code : UInt16) : downs [⟨code, .down⟩] = [code] := rfl

@[simp] lemma downs_up (code : UInt16) : downs [⟨code, .up⟩] = [] := rfl

@[simp] lemma downs_held (code : UInt16) : downs [⟨code, .held⟩] = [] := rfl

lemma eq_of_ofCodes {name : String} {codes : List UInt16} {c : Combo}
    (h : Combo.ofCodes name codes = .ok c) : c = ⟨name, codes⟩ ∧ codes ≠ [] := by
  unfold Combo.ofCodes at h
  by_cases he : codes.isEmpty = true
  · rw [if_pos he] at h
    cases h
  · rw [if_neg he] at h
    refine ⟨?_, fun hn => he (List.isEmpty_iff.2 hn)⟩
    cases hr : Combo.firstRepeated [] codes with
    | some code =>
      rw [hr] at h
      cases h
    | none =>
      rw [hr] at h
      cases h
      rfl

lemma after_add_of_error {name : String} {codes : List UInt16} {e : Error}
    (h : Combo.ofCodes name codes = .error e) : m.after (.add name codes) = m := by
  have ha : m.add name codes = .error e := by
    rw [add, h]
    rfl
  change (m.add name codes).toOption.getD m = m
  rw [ha]
  rfl

lemma add_of_none (hf : m.trie.Follows combos) {name : String} {codes : List UInt16} {c : Combo}
    (h : Combo.ofCodes name codes = .ok c) (hl : combos.lookup c.codes = none) :
    m.add name codes = .ok { m with trie := (m.trie.place c c.codes).2 } := by
  rw [add, h]
  change (m.trie.insert c).bind _ = _
  rw [hf.insert_of_none hl]
  rfl

lemma add_of_some (hf : m.trie.Follows combos) {name : String} {codes : List UInt16}
    {c holder : Combo} (h : Combo.ofCodes name codes = .ok c)
    (hl : combos.lookup c.codes = some holder) :
    m.add name codes = .error (.comboTaken c.codes holder.name) := by
  rw [add, h]
  change (m.trie.insert c).bind _ = _
  rw [hf.insert_of_some hl]
  rfl

/-- An addition that fails leaves the trie as it is, so both are told by what the trie is left as. -/
lemma after_add_of_ok (hf : m.trie.Follows combos) {name : String} {codes : List UInt16} {c : Combo}
    (h : Combo.ofCodes name codes = .ok c) :
    m.after (.add name codes) = { m with trie := (m.trie.perform (.insert c)).2 } := by
  change (m.add name codes).toOption.getD m = _
  rw [hf.perform_insert c]
  cases hl : combos.lookup c.codes with
  | none =>
    rw [add_of_none hf h hl]
    rfl
  | some holder =>
    rw [add_of_some hf h hl]
    rfl

lemma after_remove_of_none (hf : m.trie.Follows combos) {codes : List UInt16}
    (h : combos.lookup codes = none) : m.after (.remove codes) = m := by
  have hr : m.remove codes = .error (.unknownCombo codes) := by
    rw [remove, Trie.erase_of_none ((hf.lookup codes).trans h)]
    rfl
  change (m.remove codes).toOption.getD m = m
  rw [hr]
  rfl

lemma after_remove_of_some (hf : m.trie.Follows combos) {codes : List UInt16} {c : Combo}
    (h : combos.lookup codes = some c) :
    m.after (.remove codes) =
      { m with trie := (m.trie.perform (.erase codes)).2, cursor := [] } := by
  obtain ⟨u, -, he⟩ := Trie.exists_erase_of_some ((hf.lookup codes).trans h)
  have hr : m.remove codes = .ok { m with trie := u, cursor := [] } := by
    rw [remove, he]
    rfl
  change (m.remove codes).toOption.getD m = _
  rw [hr, Trie.perform, he]
  rfl

/-- What ties a matcher to the combos that are registered while calls are made. -/
structure Kept (m : Matcher) (combos : Combos) : Prop where
  follows : m.trie.Follows combos
  coded : [] ∉ combos
  walked : (m.trie.walk m.cursor).isSome
  idle : m.pressed = 0 → m.cursor = []

lemma kept_empty : Matcher.empty.Kept ∅ where
  follows := Trie.follows_empty
  coded := Finmap.notMem_empty
  walked := rfl
  idle _ := rfl

lemma Kept.add (h : m.Kept combos) (name : String) (codes : List UInt16) :
    (m.after (.add name codes)).Kept (register combos (.add name codes)) := by
  rw [register]
  cases hc : Combo.ofCodes name codes with
  | error e =>
    rw [after_add_of_error hc]
    exact h
  | ok c =>
    obtain ⟨rfl, hne⟩ := eq_of_ofCodes hc
    have hf := (h.follows.insert ⟨name, codes⟩).2
    rw [after_add_of_ok h.follows hc]
    refine ⟨hf, ?_, ?_, h.idle⟩
    · rw [Combos.mem_perform_insert]
      exact fun hn => hn.elim (fun he => hne he.symm) h.coded
    · -- the way to the cursor stays: no combo that was there goes
      refine (hf.walk_isSome_iff _).2 (((h.follows.walk_isSome_iff _).1 h.walked).imp_right ?_)
      rintro ⟨q, hpq, hq⟩
      exact ⟨q, hpq, (Combos.mem_perform_insert combos _ q).2 (.inr hq)⟩

lemma Kept.remove (h : m.Kept combos) (codes : List UInt16) :
    (m.after (.remove codes)).Kept (register combos (.remove codes)) := by
  have hf := (h.follows.erase codes).2
  change (m.after (.remove codes)).Kept (combos.perform (.erase codes)).2
  cases hl : combos.lookup codes with
  | none =>
    have hr : combos.perform (.erase codes) = (.error (.unknownCombo codes), combos) := by
      rw [Combos.perform, hl]
    rw [after_remove_of_none h.follows hl, hr]
    exact h
  | some c =>
    have hr : combos.perform (.erase codes) = (.ok (some c), combos.erase codes) := by
      rw [Combos.perform, hl]
    rw [after_remove_of_some h.follows hl]
    refine ⟨hf, ?_, rfl, fun _ => rfl⟩
    rw [hr, Finmap.mem_erase]
    exact fun hn => h.coded hn.2

lemma feed_down (m : Matcher) (code : UInt16) :
    m.feed ⟨code, .down⟩ =
      ([], { m with
        cursor := if (m.trie.walk (m.cursor ++ [code])).isSome then m.cursor ++ [code] else []
        pressed := m.pressed + 1 }) := rfl

lemma feed_up_of_held (h : 0 < m.pressed - 1) (code : UInt16) :
    m.feed ⟨code, .up⟩ = ([], { m with pressed := m.pressed - 1 }) := by
  unfold feed
  dsimp only
  rw [if_pos h]

lemma feed_up_of_last (h : ¬0 < m.pressed - 1) (code : UInt16) :
    m.feed ⟨code, .up⟩ =
      ((((m.trie.walk m.cursor).bind Trie.combo).map Combo.name).toList,
        { m with cursor := [], pressed := m.pressed - 1 }) := by
  unfold feed
  dsimp only
  rw [if_neg h]

lemma feed_held (m : Matcher) (code : UInt16) : m.feed ⟨code, .held⟩ = ([], m) := rfl

lemma Kept.feed (h : m.Kept combos) (e : KeyEvent) : (m.feed e).2.Kept combos := by
  obtain ⟨code, state⟩ := e
  cases state with
  | down =>
    rw [feed_down]
    refine ⟨h.follows, h.coded, ?_, fun hp => nomatch hp⟩
    dsimp only
    split
    · assumption
    · rfl
  | up =>
    by_cases hp : 0 < m.pressed - 1
    · rw [feed_up_of_held hp]
      exact ⟨h.follows, h.coded, h.walked, fun hz => absurd hz (Nat.ne_of_gt hp)⟩
    · rw [feed_up_of_last hp]
      exact ⟨h.follows, h.coded, rfl, fun _ => rfl⟩
  | held => exact h

lemma Kept.after (h : m.Kept combos) (call : Call) :
    (m.after call).Kept (register combos call) := by
  cases call with
  | add name codes => exact h.add name codes
  | remove codes => exact h.remove codes
  | feed e => exact h.feed e

lemma kept_afterAll (calls : List Call) : (afterAll .empty calls).Kept (registered calls) := by
  induction calls using List.reverseRecOn with
  | nil => exact kept_empty
  | append_singleton calls call ih =>
    rw [afterAll_concat, registered_concat]
    exact ih.after call

/-! ### The keys behind the cursor -/

lemma cursor_add (h : m.Kept combos) (name : String) (codes : List UInt16) :
    (m.after (.add name codes)).cursor = m.cursor := by
  cases hc : Combo.ofCodes name codes with
  | error e => rw [after_add_of_error hc]
  | ok c => rw [after_add_of_ok h.follows hc]

lemma cursor_remove (h : m.Kept combos) (codes : List UInt16) :
    (m.after (.remove codes)).cursor <:+ m.cursor := by
  cases hl : combos.lookup codes with
  | none =>
    rw [after_remove_of_none h.follows hl]
  | some c =>
    rw [after_remove_of_some h.follows hl]
    exact List.nil_suffix

lemma cursor_feed (m : Matcher) (e : KeyEvent) :
    (m.feed e).2.cursor <:+ m.cursor ++ downs [e] := by
  obtain ⟨code, state⟩ := e
  cases state with
  | down =>
    rw [feed_down]
    dsimp only
    split
    · exact List.suffix_rfl
    · exact List.nil_suffix
  | up =>
    rw [downs_up, List.append_nil]
    by_cases hp : 0 < m.pressed - 1
    · rw [feed_up_of_held hp]
    · rw [feed_up_of_last hp]
      exact List.nil_suffix
  | held => exact (List.append_nil m.cursor).symm ▸ List.suffix_rfl

/-- Every call leaves a cursor that ends what was pressed. -/
lemma Kept.cursor_after (h : m.Kept combos) (call : Call) :
    (m.after call).cursor <:+ m.cursor ++ downs call.event?.toList := by
  cases call with
  | add name codes =>
    rw [cursor_add h]
    exact (List.append_nil m.cursor).symm ▸ List.suffix_rfl
  | remove codes => exact (List.append_nil m.cursor).symm ▸ cursor_remove h codes
  | feed e => exact cursor_feed m e

/-- The cursor is made of the last keys that went down since no key was pressed. -/
lemma exists_lastIdle (calls : List Call) :
    ∃ before since, calls = before ++ since ∧ LastIdle before since ∧
      (afterAll .empty calls).cursor <:+ downs (since.filterMap Call.event?) := by
  induction calls using List.reverseRecOn with
  | nil =>
    refine ⟨[], [], rfl, ⟨rfl, fun s hs hne => ?_⟩, List.suffix_rfl⟩
    exact absurd (List.prefix_nil.1 hs) hne
  | append_singleton calls call ih =>
    have hkept := kept_afterAll (calls ++ [call])
    by_cases hp : (afterAll .empty (calls ++ [call])).pressed = 0
    · -- no key is pressed after this call, so the count of calls starts anew
      refine ⟨calls ++ [call], [], (List.append_nil _).symm, ⟨hp, fun s hs hne => ?_⟩, ?_⟩
      · exact absurd (List.prefix_nil.1 hs) hne
      · rw [hkept.idle hp]
        exact List.nil_suffix
    · obtain ⟨before, since, hcalls, hidle, hcursor⟩ := ih
      refine ⟨before, since ++ [call], by rw [hcalls, List.append_assoc], ⟨hidle.idle, ?_⟩, ?_⟩
      · intro s hs hne
        rcases List.prefix_concat_iff.1 hs with rfl | hs
        · rwa [← List.append_assoc, ← hcalls]
        · exact hidle.held s hs hne
      · rw [afterAll_concat, List.filterMap_append, downs_append]
        -- the call leaves the end of a cursor that was the end of the keys before it
        refine ((kept_afterAll calls).cursor_after call).trans ?_
        obtain ⟨rest, hrest⟩ := hcursor
        refine ⟨rest, ?_⟩
        rw [← List.append_assoc, hrest]
        cases call <;> rfl

lemma exists_combo_of_fired (h : m.Kept combos) {e : KeyEvent} {name : String}
    (hn : name ∈ (m.feed e).1) :
    e.state = .up ∧ ∃ c, combos.lookup m.cursor = some c ∧ c.name = name := by
  obtain ⟨code, state⟩ := e
  cases state with
  | down => cases hn
  | held => cases hn
  | up =>
    by_cases hp : 0 < m.pressed - 1
    · rw [feed_up_of_held hp] at hn
      cases hn
    · rw [feed_up_of_last hp, Option.mem_toList, Option.map_eq_some_iff] at hn
      obtain ⟨c, hc, hname⟩ := hn
      refine ⟨rfl, c, ?_, hname⟩
      rw [← h.follows.lookup]
      exact hc

lemma length_feed (m : Matcher) (e : KeyEvent) : (m.feed e).1.length ≤ 1 := by
  obtain ⟨code, state⟩ := e
  cases state with
  | down => exact Nat.zero_le 1
  | held => exact Nat.zero_le 1
  | up =>
    by_cases hp : 0 < m.pressed - 1
    · rw [feed_up_of_held hp]
      exact Nat.zero_le 1
    · rw [feed_up_of_last hp]
      exact Option.length_toList_le

/-- Whatever was added, removed and pressed before, at most one combo fires, only as a key is let go,
and it is one that is registered, whose codes are the last keys that went down since no key was
pressed. -/
theorem fires_only_what_was_pressed (calls : List Call) (e : KeyEvent) :
    ((afterAll .empty calls).feed e).1.length ≤ 1 ∧
      ∀ name ∈ ((afterAll .empty calls).feed e).1, e.state = .up ∧
        ∃ c before since, c.name = name ∧ (registered calls).lookup c.codes = some c ∧
          calls = before ++ since ∧ LastIdle before since ∧
          c.codes <:+ downs (since.filterMap Call.event?) := by
  refine ⟨length_feed _ e, fun name hn => ?_⟩
  have hkept := kept_afterAll calls
  obtain ⟨hup, c, hc, hname⟩ := exists_combo_of_fired hkept hn
  obtain ⟨before, since, hcalls, hidle, hcursor⟩ := exists_lastIdle calls
  have hcodes := hkept.follows.codes _ c hc
  exact ⟨hup, c, before, since, hname, by rwa [hcodes], hcalls, hidle, by rwa [hcodes]⟩

/-- A key that is no part of a combo goes down first, and a combo is added while keys are pressed. -/
theorem fires_only_what_was_pressed_meanwhile :
    let calls := [Call.add "long" [1, 300, 2], .feed ⟨9, .down⟩, .feed ⟨1, .down⟩,
      .feed ⟨300, .down⟩, .add "short" [1, 300], .feed ⟨9, .up⟩, .feed ⟨1, .up⟩]
    ((afterAll .empty calls).feed ⟨300, .up⟩).1 = ["short"] ∧
      ∃ c before since, c.name = "short" ∧ (registered calls).lookup c.codes = some c ∧
        calls = before ++ since ∧ LastIdle before since ∧
        c.codes <:+ downs (since.filterMap Call.event?) := by
  intro calls
  have hfired : ((afterAll .empty calls).feed ⟨300, .up⟩).1 = ["short"] := by decide
  have hmem : "short" ∈ ((afterAll .empty calls).feed ⟨300, .up⟩).1 := by
    rw [hfired]
    exact List.mem_singleton_self _
  exact ⟨hfired, ((fires_only_what_was_pressed calls ⟨300, .up⟩).2 "short" hmem).2⟩

end TransactionEngine.Matcher
