import TransactionEngine.Engine
import TransactionEngine.Proofs.MatcherHistory
import TransactionEngine.Proofs.Outcomes

/-!
# Configured combos

An engine takes the combos of its configuration from the first one to the last, and the first one
that does not fit ends it. If all fit, what the engine knows are these combos, in whatever order they
stand.
-/

namespace TransactionEngine

/-- A code stands in a list again, and none does before that. -/
def Repeats (codes : List UInt16) (code : UInt16) : Prop :=
  ∃ before after, codes = before ++ code :: after ∧ before.Nodup ∧ code ∈ before

lemma nodup_or_repeats (codes : List UInt16) : codes.Nodup ∨ ∃ code, Repeats codes code := by
  induction codes using List.reverseRecOn with
  | nil => exact .inl .nil
  | append_singleton codes code ih =>
    rcases ih with hnodup | ⟨first, before, after, rfl, hnodup, hmem⟩
    · by_cases hmem : code ∈ codes
      · exact .inr ⟨code, codes, [], rfl, hnodup, hmem⟩
      · exact .inl (List.nodup_append_comm.1 (List.nodup_cons.2 ⟨hmem, hnodup⟩))
    · refine .inr ⟨first, before, after ++ [code], ?_, hnodup, hmem⟩
      rw [List.append_assoc, List.cons_append]

lemma Repeats.not_nodup {codes : List UInt16} {code : UInt16} (h : Repeats codes code) :
    ¬codes.Nodup := by
  obtain ⟨before, after, rfl, -, hmem⟩ := h
  exact fun hn => (List.disjoint_of_nodup_append hn) hmem List.mem_cons_self

namespace Combo

lemma firstRepeated_cons_of_mem {seen : List UInt16} {code : UInt16} (h : code ∈ seen)
    (codes : List UInt16) : firstRepeated seen (code :: codes) = some code := by
  rw [firstRepeated, if_pos (List.contains_iff_mem.2 h)]

lemma firstRepeated_cons_of_notMem {seen : List UInt16} {code : UInt16} (h : code ∉ seen)
    (codes : List UInt16) :
    firstRepeated seen (code :: codes) = firstRepeated (code :: seen) codes := by
  rw [firstRepeated, if_neg (mt List.contains_iff_mem.1 h)]

lemma firstRepeated_append {seen before : List UInt16} (hnodup : before.Nodup)
    (hnew : before.Disjoint seen) (codes : List UInt16) :
    firstRepeated seen (before ++ codes) = firstRepeated (before.reverse ++ seen) codes := by
  induction before generalizing seen with
  | nil => rfl
  | cons code before ih =>
    obtain ⟨hmem, hnodup⟩ := List.nodup_cons.1 hnodup
    obtain ⟨hseen, hnew⟩ := List.disjoint_cons_left.1 hnew
    rw [List.cons_append, firstRepeated_cons_of_notMem hseen,
      ih hnodup (List.disjoint_cons_right.2 ⟨hmem, hnew⟩), List.reverse_cons, List.append_assoc]
    rfl

lemma firstRepeated_of_nodup {codes : List UInt16} (h : codes.Nodup) :
    firstRepeated [] codes = none := by
  rw [← List.append_nil codes, firstRepeated_append h (List.disjoint_nil_right codes),
    firstRepeated]

lemma firstRepeated_of_repeats {codes : List UInt16} {code : UInt16} (h : Repeats codes code) :
    firstRepeated [] codes = some code := by
  obtain ⟨before, after, rfl, hnodup, hmem⟩ := h
  rw [firstRepeated_append hnodup (List.disjoint_nil_right before), List.append_nil]
  exact firstRepeated_cons_of_mem (List.mem_reverse.2 hmem) after

lemma ofCodes_nil (name : String) : ofCodes name [] = .error (.comboWithoutCodes name) := rfl

lemma ofCodes_of_repeats (name : String) {codes : List UInt16} {code : UInt16}
    (h : Repeats codes code) : ofCodes name codes = .error (.comboRepeats name code) := by
  have hne : codes.isEmpty ≠ true := by
    obtain ⟨before, after, rfl, -, -⟩ := h
    rw [ne_eq, List.isEmpty_iff]
    exact List.append_ne_nil_of_right_ne_nil before (List.cons_ne_nil code after)
  rw [ofCodes, if_neg hne, firstRepeated_of_repeats h]

lemma ofCodes_of_nodup (name : String) {codes : List UInt16} (hne : codes ≠ [])
    (h : codes.Nodup) : ofCodes name codes = .ok ⟨name, codes⟩ := by
  rw [ofCodes, if_neg (mt List.isEmpty_iff.1 hne), firstRepeated_of_nodup h]

end Combo

def HotkeyEntry.combo (h : HotkeyEntry) : Combo :=
  ⟨h.name, h.codes⟩

namespace Engine

open Trie (Combos)

/-- Each entry is a combo, and no two of them have the same codes. -/
structure Admissible (hotkeys : List HotkeyEntry) : Prop where
  coded : ∀ h ∈ hotkeys, h.codes ≠ []
  distinct : ∀ h ∈ hotkeys, h.codes.Nodup
  apart : (hotkeys.map HotkeyEntry.codes).Nodup

/-- The entry is a combo, and has other codes than those before it. -/
structure Fits (before : List HotkeyEntry) (h : HotkeyEntry) : Prop where
  coded : h.codes ≠ []
  distinct : h.codes.Nodup
  free : ∀ b ∈ before, b.codes ≠ h.codes

/-- Why an entry is not taken: by itself, or for one before it. -/
inductive Refused (before : List HotkeyEntry) (h : HotkeyEntry) : Error → Prop where
  | withoutCodes (hcodes : h.codes = []) : Refused before h (.comboWithoutCodes h.name)
  | repeats {code : UInt16} (hcodes : Repeats h.codes code) :
      Refused before h (.comboRepeats h.name code)
  | taken {b : HotkeyEntry} (hne : h.codes ≠ []) (hnodup : h.codes.Nodup) (hb : b ∈ before)
      (hcodes : b.codes = h.codes) : Refused before h (.comboTaken h.codes b.name)

/-- What a trie shows of entries: the ways to their combos, the combos themselves, and no others. -/
structure Shows (t : Trie) (hotkeys : List HotkeyEntry) : Prop where
  walk : ∀ p, (t.walk p).isSome ↔ p = [] ∨ ∃ h ∈ hotkeys, p <+: h.codes
  combo : ∀ p node c, t.walk p = some node →
    (node.combo = some c ↔ ∃ h ∈ hotkeys, h.codes = p ∧ h.combo = c)
  isLeaf : ∀ p node, t.walk p = some node →
    (node.isLeaf = true ↔ ¬∃ h ∈ hotkeys, p <+: h.codes ∧ h.codes ≠ p)

variable {before hotkeys : List HotkeyEntry} {h : HotkeyEntry} {m n : Matcher} {combos : Combos}

lemma admissible_concat_iff :
    Admissible (before ++ [h]) ↔ Admissible before ∧ Fits before h := by
  have hapart : ((before ++ [h]).map HotkeyEntry.codes).Nodup ↔
      (∀ b ∈ before, b.codes ≠ h.codes) ∧ (before.map HotkeyEntry.codes).Nodup := by
    rw [List.map_append, List.map_singleton, List.nodup_append_comm, List.singleton_append,
      List.nodup_cons, List.mem_map, not_exists]
    exact and_congr_left' (forall_congr' fun b => not_and)
  constructor
  · rintro ⟨hcoded, hdistinct, ha⟩
    rw [List.forall_mem_append, List.forall_mem_singleton] at hcoded hdistinct
    obtain ⟨hfree, ha⟩ := hapart.1 ha
    exact ⟨⟨hcoded.1, hdistinct.1, ha⟩, ⟨hcoded.2, hdistinct.2, hfree⟩⟩
  · rintro ⟨⟨hcoded, hdistinct, ha⟩, hh⟩
    refine ⟨?_, ?_, hapart.2 ⟨hh.free, ha⟩⟩
    · rw [List.forall_mem_append, List.forall_mem_singleton]
      exact ⟨hcoded, hh.coded⟩
    · rw [List.forall_mem_append, List.forall_mem_singleton]
      exact ⟨hdistinct, hh.distinct⟩

lemma Admissible.perm {others : List HotkeyEntry} (ha : Admissible hotkeys)
    (hperm : others.Perm hotkeys) : Admissible others where
  coded h hh := ha.coded h (hperm.mem_iff.1 hh)
  distinct h hh := ha.distinct h (hperm.mem_iff.1 hh)
  apart := (hperm.map HotkeyEntry.codes).nodup_iff.2 ha.apart

lemma fits_or_refused (before : List HotkeyEntry) (h : HotkeyEntry) :
    Fits before h ∨ ∃ e, Refused before h e := by
  by_cases hne : h.codes = []
  · exact .inr ⟨_, .withoutCodes hne⟩
  · rcases nodup_or_repeats h.codes with hnodup | ⟨code, hrepeats⟩
    · by_cases hfree : ∀ b ∈ before, b.codes ≠ h.codes
      · exact .inl ⟨hne, hnodup, hfree⟩
      · push Not at hfree
        obtain ⟨b, hb, hcodes⟩ := hfree
        exact .inr ⟨_, .taken hne hnodup hb hcodes⟩
    · exact .inr ⟨_, .repeats hrepeats⟩

/-- What is wrong with the entry itself comes first. -/
lemma Refused.kind_eq {e : Error} (hr : Refused before h e) :
    e.kind = if h.codes ≠ [] ∧ h.codes.Nodup then .alreadyExists else .invalidArgument := by
  cases hr with
  | withoutCodes hcodes =>
    rw [if_neg fun hc => hc.1 hcodes]
    rfl
  | repeats hcodes =>
    rw [if_neg fun hc => hcodes.not_nodup hc.2]
    rfl
  | taken hne hnodup hb hcodes =>
    rw [if_pos ⟨hne, hnodup⟩]
    rfl

/-- A matcher that knows these entries, has no key down and stands at the root. -/
structure Taught (m : Matcher) (hotkeys : List HotkeyEntry) (combos : Combos) : Prop where
  follows : m.trie.Follows combos
  lookup : ∀ p c, combos.lookup p = some c ↔ ∃ h ∈ hotkeys, h.codes = p ∧ h.combo = c
  cursor : m.cursor = []
  pressed : m.pressed = 0

lemma taught_empty : Taught .empty [] ∅ where
  follows := Trie.follows_empty
  lookup p c := by
    rw [Finmap.lookup_empty]
    exact iff_of_false nofun (by rintro ⟨h, hmem, -⟩; cases hmem)
  cursor := rfl
  pressed := rfl

lemma Taught.add (ht : Taught m before combos) (hf : Fits before h) :
    ∃ n combos', m.add h.name h.codes = .ok n ∧ Taught n (before ++ [h]) combos' := by
  have hl : combos.lookup h.codes = none := by
    rw [Option.eq_none_iff_forall_ne_some]
    intro c hc
    obtain ⟨b, hb, hcodes, -⟩ := (ht.lookup _ _).1 hc
    exact hf.free b hb hcodes
  have hfollows := (ht.follows.insert h.combo).2
  rw [ht.follows.perform_insert, Combos.perform, HotkeyEntry.combo, hl] at hfollows
  refine ⟨_, combos.insert h.codes h.combo,
    Matcher.add_of_none ht.follows (Combo.ofCodes_of_nodup h.name hf.coded hf.distinct) hl,
    hfollows, fun p c => ?_, ht.cursor, ht.pressed⟩
  rw [lookup_insert_eq]
  simp only [List.mem_append, List.mem_singleton, or_and_right, exists_or, exists_eq_left]
  by_cases hp : p = h.codes
  · have hfree : ¬∃ b ∈ before, b.codes = p ∧ b.combo = c := by
      rintro ⟨b, hb, hcodes, -⟩
      exact hf.free b hb (hcodes.trans hp)
    rw [if_pos hp, Option.some_inj, or_iff_right hfree, and_iff_right hp.symm]
  · rw [if_neg hp, ht.lookup, or_iff_left fun hh => hp hh.1.symm]

lemma Taught.refuse (ht : Taught m before combos) {e : Error} (hr : Refused before h e) :
    m.add h.name h.codes = .error e := by
  cases hr with
  | withoutCodes hcodes =>
    rw [Matcher.add, hcodes, Combo.ofCodes_nil]
    rfl
  | repeats hcodes =>
    rw [Matcher.add, Combo.ofCodes_of_repeats h.name hcodes]
    rfl
  | @taken b hne hnodup hb hcodes =>
    have hl : combos.lookup h.codes = some b.combo := (ht.lookup _ _).2 ⟨b, hb, hcodes, rfl⟩
    exact Matcher.add_of_some ht.follows (Combo.ofCodes_of_nodup h.name hne hnodup) hl

/-! ### All entries -/

lemma addHotkeys_append (m : Matcher) (before after : List HotkeyEntry) :
    addHotkeys m (before ++ after) = addHotkeys m before >>= (addHotkeys · after) := by
  induction before generalizing m with
  | nil => rfl
  | cons h before ih =>
    rw [List.cons_append, addHotkeys, addHotkeys]
    cases hm : m.add h.name h.codes with
    | error e => rfl
    | ok n => exact ih n

lemma addHotkeys_concat (m : Matcher) (before : List HotkeyEntry) (h : HotkeyEntry) :
    addHotkeys m (before ++ [h]) = addHotkeys m before >>= (·.add h.name h.codes) := by
  rw [addHotkeys_append]
  cases addHotkeys m before with
  | error e => rfl
  | ok n =>
    change (n.add h.name h.codes >>= fun l => addHotkeys l []) = n.add h.name h.codes
    cases n.add h.name h.codes <;> rfl

lemma exists_taught (ha : Admissible hotkeys) :
    ∃ m combos, addHotkeys .empty hotkeys = .ok m ∧ Taught m hotkeys combos := by
  induction hotkeys using List.reverseRecOn with
  | nil => exact ⟨_, _, rfl, taught_empty⟩
  | append_singleton before h ih =>
    obtain ⟨ha, hf⟩ := admissible_concat_iff.1 ha
    obtain ⟨m, combos, hm, ht⟩ := ih ha
    obtain ⟨n, combos', hn, ht⟩ := ht.add hf
    refine ⟨n, combos', ?_, ht⟩
    rw [addHotkeys_concat, hm]
    exact hn

lemma admissible_or_refused (hotkeys : List HotkeyEntry) :
    Admissible hotkeys ∨ ∃ before h after e,
      hotkeys = before ++ h :: after ∧ Admissible before ∧ Refused before h e := by
  induction hotkeys using List.reverseRecOn with
  | nil => exact .inl ⟨nofun, nofun, .nil⟩
  | append_singleton hotkeys h ih =>
    rcases ih with ha | ⟨before, first, after, e, rfl, ha, hr⟩
    · rcases fits_or_refused hotkeys h with hf | ⟨e, hr⟩
      · exact .inl (admissible_concat_iff.2 ⟨ha, hf⟩)
      · exact .inr ⟨hotkeys, h, [], e, rfl, ha, hr⟩
    · refine .inr ⟨before, first, after ++ [h], e, ?_, ha, hr⟩
      rw [List.append_assoc, List.cons_append]

lemma addHotkeys_of_refused (ha : Admissible before) {e : Error} (hr : Refused before h e)
    (after : List HotkeyEntry) : addHotkeys .empty (before ++ h :: after) = .error e := by
  obtain ⟨m, combos, hm, ht⟩ := exists_taught ha
  rw [addHotkeys_append, hm]
  change (m.add h.name h.codes >>= fun n => addHotkeys n after) = .error e
  rw [ht.refuse hr]
  rfl

lemma addHotkeys_eq_error_iff {e : Error} :
    addHotkeys .empty hotkeys = .error e ↔ ∃ before h after,
      hotkeys = before ++ h :: after ∧ Admissible before ∧ Refused before h e := by
  constructor
  · intro he
    rcases admissible_or_refused hotkeys with ha | ⟨before, h, after, e', rfl, ha, hr⟩
    · obtain ⟨m, combos, hm, -⟩ := exists_taught ha
      cases he.symm.trans hm
    · cases he.symm.trans (addHotkeys_of_refused ha hr after)
      exact ⟨before, h, after, rfl, ha, hr⟩
  · rintro ⟨before, h, after, rfl, ha, hr⟩
    exact addHotkeys_of_refused ha hr after

lemma exists_error (hn : ¬Admissible hotkeys) : ∃ e, addHotkeys .empty hotkeys = .error e := by
  obtain ⟨before, h, after, e, rfl, ha, hr⟩ := (admissible_or_refused hotkeys).resolve_left hn
  exact ⟨e, addHotkeys_of_refused ha hr after⟩

lemma exists_addHotkeys_iff : (∃ m, addHotkeys .empty hotkeys = .ok m) ↔ Admissible hotkeys := by
  constructor
  · rintro ⟨m, hm⟩
    by_contra hn
    obtain ⟨e, he⟩ := exists_error hn
    cases hm.symm.trans he
  · intro ha
    obtain ⟨m, combos, hm, -⟩ := exists_taught ha
    exact ⟨m, hm⟩

lemma exists_combos_of_ok (hm : addHotkeys .empty hotkeys = .ok m) :
    ∃ combos, Taught m hotkeys combos := by
  obtain ⟨n, combos, hn, ht⟩ := exists_taught (exists_addHotkeys_iff.1 ⟨m, hm⟩)
  cases hm.symm.trans hn
  exact ⟨combos, ht⟩

lemma Taught.mem_iff (ht : Taught m hotkeys combos) (q : List UInt16) :
    q ∈ combos ↔ ∃ h ∈ hotkeys, h.codes = q := by
  rw [Finmap.mem_iff]
  constructor
  · rintro ⟨c, hc⟩
    obtain ⟨h, hh, hcodes, -⟩ := (ht.lookup q c).1 hc
    exact ⟨h, hh, hcodes⟩
  · rintro ⟨h, hh, hcodes⟩
    exact ⟨h.combo, (ht.lookup q h.combo).2 ⟨h, hh, hcodes, rfl⟩⟩

lemma Taught.shows (ht : Taught m hotkeys combos) : Shows m.trie hotkeys where
  walk p := by
    rw [ht.follows.walk_isSome_iff]
    refine or_congr_right ⟨?_, ?_⟩
    · rintro ⟨q, hp, hq⟩
      obtain ⟨h, hh, rfl⟩ := (ht.mem_iff q).1 hq
      exact ⟨h, hh, hp⟩
    · rintro ⟨h, hh, hp⟩
      exact ⟨h.codes, hp, (ht.mem_iff _).2 ⟨h, hh, rfl⟩⟩
  combo p node c hw := by rw [ht.follows.combo_eq hw, ht.lookup]
  isLeaf p node hw := by
    rw [ht.follows.isLeaf_iff hw]
    refine not_congr ⟨?_, ?_⟩
    · rintro ⟨q, hp, hne, hq⟩
      obtain ⟨h, hh, rfl⟩ := (ht.mem_iff q).1 hq
      exact ⟨h, hh, hp, hne⟩
    · rintro ⟨h, hh, hp, hne⟩
      exact ⟨h.codes, hp, hne, (ht.mem_iff _).2 ⟨h, hh, rfl⟩⟩

/-- The same combos, reached the same way, with as many keys down. -/
structure Twins (m n : Matcher) : Prop where
  same : ∃ combos, m.trie.Follows combos ∧ n.trie.Follows combos
  cursor : m.cursor = n.cursor
  pressed : m.pressed = n.pressed

lemma Twins.feed (ht : Twins m n) (e : KeyEvent) :
    (m.feed e).1 = (n.feed e).1 ∧ Twins (m.feed e).2 (n.feed e).2 := by
  obtain ⟨⟨combos, hm, hn⟩, hcursor, hpressed⟩ := ht
  obtain ⟨code, state⟩ := e
  cases state with
  | down =>
    rw [Matcher.feed_down, Matcher.feed_down, ← hcursor, ← hpressed]
    have hwalk : (m.trie.walk (m.cursor ++ [code])).isSome =
        (n.trie.walk (m.cursor ++ [code])).isSome :=
      Bool.eq_iff_iff.2 ((hm.walk_isSome_iff _).trans (hn.walk_isSome_iff _).symm)
    rw [hwalk]
    exact ⟨rfl, ⟨combos, hm, hn⟩, rfl, rfl⟩
  | up =>
    by_cases hp : 0 < m.pressed - 1
    · rw [Matcher.feed_up_of_held hp, Matcher.feed_up_of_held (hpressed ▸ hp), ← hpressed]
      exact ⟨rfl, ⟨combos, hm, hn⟩, hcursor, rfl⟩
    · rw [Matcher.feed_up_of_last hp, Matcher.feed_up_of_last (hpressed ▸ hp), ← hpressed,
        ← hcursor]
      have hcombo : m.trie.combo? m.cursor = n.trie.combo? m.cursor :=
        (hm.lookup _).trans (hn.lookup _).symm
      refine ⟨?_, ⟨combos, hm, hn⟩, rfl, rfl⟩
      exact congrArg (fun c => (c.map Combo.name).toList) hcombo
  | held => exact ⟨rfl, ⟨combos, hm, hn⟩, hcursor, hpressed⟩

lemma Taught.twins {others : List HotkeyEntry} {combos' : Combos} (ht : Taught m hotkeys combos)
    (ho : Taught n others combos') (hperm : others.Perm hotkeys) : Twins m n := by
  have hsame : combos' = combos := by
    refine Finmap.ext_lookup fun p => Option.ext fun c => ?_
    rw [ho.lookup, ht.lookup]
    simp only [hperm.mem_iff]
  subst hsame
  exact ⟨⟨combos', ht.follows, ho.follows⟩, ht.cursor.trans ho.cursor.symm,
    ht.pressed.trans ho.pressed.symm⟩

lemma Taught.same_names {others : List HotkeyEntry} {combos' : Combos}
    (ht : Taught m hotkeys combos) (ho : Taught n others combos') (hperm : others.Perm hotkeys)
    (events : List KeyEvent) :
    (replay Matcher.feed n events).1 = (replay Matcher.feed m events).1 :=
  (replay_simulates (R := Twins) (fun _ _ e hmn => hmn.feed e) (ht.twins ho hperm) events).1.symm

/-- Both fail, or both are engines in which the same keys complete the same combos. -/
inductive SameNames : Except Error Engine → Except Error Engine → Prop where
  | failed (e f : Error) : SameNames (.error e) (.error f)
  | made {e f : Engine}
      (hnames : ∀ events,
        (replay Matcher.feed e.matcher events).1 = (replay Matcher.feed f.matcher events).1) :
      SameNames (.ok e) (.ok f)

lemma ofConfig_of_error {c : Config} {e : Error} (h : addHotkeys .empty c.hotkeys = .error e) :
    ofConfig c = .error e := by
  rw [ofConfig, h]
  rfl

lemma ofConfig_of_ok {c : Config} (h : addHotkeys .empty c.hotkeys = .ok m) :
    ofConfig c = .ok ⟨.ofCapacity c.initialCapacity.toNat, m⟩ := by
  rw [ofConfig, h]
  rfl

lemma ofConfig_eq_ok_iff {c : Config} {e : Engine} :
    ofConfig c = .ok e ↔
      addHotkeys .empty c.hotkeys = .ok e.matcher ∧
        e.registry = .ofCapacity c.initialCapacity.toNat := by
  cases h : addHotkeys .empty c.hotkeys with
  | error e' =>
    rw [ofConfig_of_error h]
    exact iff_of_false nofun nofun
  | ok m =>
    obtain ⟨registry, matcher⟩ := e
    rw [ofConfig_of_ok h, Except.ok.injEq, Except.ok.injEq, Engine.mk.injEq]
    exact ⟨fun ⟨hr, hm⟩ => ⟨hm, hr.symm⟩, fun ⟨hm, hr⟩ => ⟨hr.symm, hm⟩⟩

lemma ofConfig_eq_error_iff {c : Config} {e : Error} :
    ofConfig c = .error e ↔ addHotkeys .empty c.hotkeys = .error e := by
  cases h : addHotkeys .empty c.hotkeys with
  | error e' => rw [ofConfig_of_error h, Except.error.injEq, Except.error.injEq]
  | ok m =>
    rw [ofConfig_of_ok h]
    exact iff_of_false nofun nofun

lemma sameNames_of_perm {c d : Config} (hperm : d.hotkeys.Perm c.hotkeys) :
    SameNames (ofConfig d) (ofConfig c) := by
  by_cases ha : Admissible c.hotkeys
  · obtain ⟨m, combos, hm, ht⟩ := exists_taught ha
    obtain ⟨n, combos', hn, ho⟩ := exists_taught (ha.perm hperm)
    rw [ofConfig_of_ok hm, ofConfig_of_ok hn]
    exact .made (ht.same_names ho hperm)
  · obtain ⟨e, he⟩ := exists_error ha
    obtain ⟨f, hf⟩ := exists_error fun hd => ha (hd.perm hperm.symm)
    rw [ofConfig_of_error he, ofConfig_of_error hf]
    exact .failed f e

/-- An engine is made exactly if each entry has codes, none of them twice, and no two entries have
the same. Then all walks show these combos and no others, and the order of the entries does not
matter. Where it is not made, the first entry that does not fit those before it is what the error
names. -/
theorem ofConfig_tells_combos (c : Config) :
    ((∃ e, ofConfig c = .ok e) ↔ Admissible c.hotkeys) ∧
      (∀ e, ofConfig c = .ok e → Shows e.matcher.trie c.hotkeys) ∧
      (∀ e, ofConfig c = .error e ↔ ∃ before h after, c.hotkeys = before ++ h :: after ∧
        Admissible before ∧ Refused before h e ∧
        e.kind = if h.codes ≠ [] ∧ h.codes.Nodup then .alreadyExists else .invalidArgument) ∧
      ∀ hotkeys, hotkeys.Perm c.hotkeys →
        SameNames (ofConfig { c with hotkeys := hotkeys }) (ofConfig c) := by
  refine ⟨?_, ?_, ?_, ?_⟩
  · rw [← exists_addHotkeys_iff]
    constructor
    · rintro ⟨e, he⟩
      exact ⟨e.matcher, (ofConfig_eq_ok_iff.1 he).1⟩
    · rintro ⟨m, hm⟩
      exact ⟨_, ofConfig_of_ok hm⟩
  · intro e he
    obtain ⟨combos, ht⟩ := exists_combos_of_ok (ofConfig_eq_ok_iff.1 he).1
    exact ht.shows
  · intro e
    rw [ofConfig_eq_error_iff, addHotkeys_eq_error_iff]
    constructor
    · rintro ⟨before, h, after, hsplit, ha, hr⟩
      exact ⟨before, h, after, hsplit, ha, hr, hr.kind_eq⟩
    · rintro ⟨before, h, after, hsplit, ha, hr, -⟩
      exact ⟨before, h, after, hsplit, ha, hr⟩
  · intro hotkeys hperm
    exact sameNames_of_perm hperm

/-- A combo that goes on where another one ends, in both orders; and one that is there already, behind
an entry without codes. -/
theorem ofConfig_tells_combos_extension :
    let short : HotkeyEntry := ⟨"short", [1, 300]⟩
    let long : HotkeyEntry := ⟨"long", [1, 300, 2]⟩
    let configured (hotkeys : List HotkeyEntry) : Config := ⟨none, 16, hotkeys⟩
    (∃ e, ofConfig (configured [short, long]) = .ok e ∧ Shows e.matcher.trie [short, long]) ∧
      SameNames (ofConfig (configured [long, short])) (ofConfig (configured [short, long])) ∧
      ofConfig (configured [short, ⟨"none", []⟩, ⟨"again", [1, 300]⟩]) =
        .error (.comboWithoutCodes "none") ∧
      ofConfig (configured [short, ⟨"again", [1, 300]⟩, ⟨"none", []⟩]) =
        .error (.comboTaken [1, 300] "short") := by
  intro short long configured
  have hboth : Admissible [short, long] := ⟨by decide, by decide, by decide⟩
  have hone : Admissible [short] := ⟨by decide, by decide, by decide⟩
  obtain ⟨hmade, hshows, -, hperm⟩ := ofConfig_tells_combos (configured [short, long])
  obtain ⟨e, he⟩ := hmade.2 hboth
  refine ⟨⟨e, he, hshows e he⟩, hperm [long, short] (.swap short long []), ?_, ?_⟩
  · exact ((ofConfig_tells_combos _).2.2.1 _).2
      ⟨[short], ⟨"none", []⟩, [⟨"again", [1, 300]⟩], rfl, hone, .withoutCodes rfl, rfl⟩
  · exact ((ofConfig_tells_combos _).2.2.1 _).2
      ⟨[short], ⟨"again", [1, 300]⟩, [⟨"none", []⟩], rfl, hone,
        .taken (by decide) (by decide) List.mem_cons_self rfl, rfl⟩

end Engine

end TransactionEngine
