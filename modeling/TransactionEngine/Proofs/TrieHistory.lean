import TransactionEngine.Proofs.Replays
import TransactionEngine.Proofs.TrieContents

/-!
# What a trie has been through

Insertions and removals from an empty trie, next to the same calls to a finite map from code
sequences to combos. The map tells every walk and every answer, so what led to it does not matter.
-/

namespace TransactionEngine.Trie

/-- What can be asked of a trie. -/
inductive Call where
  | insert (c : Combo)
  | erase (codes : List UInt16)

/-- Makes a call; a combo that is erased is given back. A call that fails may leave something behind
too: an insertion has made its way before it knows whether the end is free. -/
def perform (t : Trie) : Call → Except Error (Option Combo) × Trie
  | .insert c =>
    match t.insert c with
    | .ok u => (.ok none, u)
    | .error e => (.error e, (t.place c c.codes).2)
  | .erase codes =>
    match t.erase codes with
    | .ok (c, u) => (.ok (some c), u)
    | .error e => (.error e, t)

abbrev Combos := Finmap fun _ : List UInt16 => Combo

namespace Combos

def perform (m : Combos) : Call → Except Error (Option Combo) × Combos
  | .insert c =>
    match m.lookup c.codes with
    | none => (.ok none, m.insert c.codes c)
    | some holder => (.error (.comboTaken c.codes holder.name), m)
  | .erase codes =>
    match m.lookup codes with
    | none => (.error (.unknownCombo codes), m)
    | some c => (.ok (some c), m.erase codes)

lemma mem_perform_insert (m : Combos) (c : Combo) (p : List UInt16) :
    p ∈ (m.perform (.insert c)).2 ↔ p = c.codes ∨ p ∈ m := by
  rw [perform]
  cases hl : m.lookup c.codes with
  | none => exact Finmap.mem_insert
  | some holder =>
    have hc : c.codes ∈ m := by
      rw [Finmap.mem_iff]
      exact ⟨holder, hl⟩
    constructor
    · exact .inr
    · rintro (rfl | hp)
      · exact hc
      · exact hp

end Combos

/-- The call fails exactly if `p` holds, only ever for this reason, and then it changes nothing. -/
def FailsIff (t : Trie) (call : Call) (kind : ErrorKind) (p : Prop) : Prop :=
  ((∃ e, (t.perform call).1 = .error e) ↔ p) ∧
    ∀ e, (t.perform call).1 = .error e → e.kind = kind ∧ (t.perform call).2 = t

/-- The walks and the answers of a trie are those of a map. -/
structure Represents (t : Trie) (m : Combos) : Prop where
  walk : ∀ p, (t.walk p).isSome ↔ p = [] ∨ ∃ q, p <+: q ∧ q ∈ m
  steps : ∀ p, p.foldlM next t = t.walk p
  combo : ∀ p node, t.walk p = some node → node.combo = m.lookup p
  isLeaf : ∀ p node, t.walk p = some node →
    (node.isLeaf = true ↔ ¬∃ q, p <+: q ∧ q ≠ p ∧ q ∈ m)
  codes : ∀ p c, m.lookup p = some c → c.codes = p
  insert : ∀ c, FailsIff t (.insert c) .alreadyExists (c.codes ∈ m)
  erase : ∀ codes, FailsIff t (.erase codes) .notFound (codes ∉ m)
  erased : ∀ codes c, m.lookup codes = some c → (t.perform (.erase codes)).1 = .ok (some c)

/-- What a walk shows of a node. -/
def view (t : Trie) : Option Combo × Bool :=
  (t.combo, t.isLeaf)

/-- Two tries that nobody can tell apart. -/
structure Alike (t u : Trie) : Prop where
  walk : ∀ p, (t.walk p).map view = (u.walk p).map view
  answers : ∀ calls, (replay Trie.perform t calls).1 = (replay Trie.perform u calls).1

/-- What ties a trie to its map while calls are made. -/
structure Follows (t : Trie) (m : Combos) : Prop where
  tidy : t.Tidy
  lookup : ∀ p, t.combo? p = m.lookup p
  codes : ∀ p c, m.lookup p = some c → c.codes = p

variable {t u : Trie} {m : Combos}

lemma follows_empty : empty.Follows ∅ where
  tidy := tidy_empty
  lookup := combo?_empty
  codes p c h := by
    rw [Finmap.lookup_empty] at h
    cases h

lemma insert_eq (t : Trie) (c : Combo) :
    t.insert c = match (t.place c c.codes).1 with
      | none => .ok (t.place c c.codes).2
      | some holder => .error (.comboTaken c.codes holder.name) := by
  unfold insert
  cases hp : t.place c c.codes with
  | mk holder u => cases holder <;> rfl

lemma Follows.insert_of_none (h : t.Follows m) {c : Combo} (hc : m.lookup c.codes = none) :
    t.insert c = .ok (t.place c c.codes).2 := by
  rw [insert_eq, (place_spec h.tidy c c.codes).1, h.lookup, hc]

lemma Follows.insert_of_some (h : t.Follows m) {c holder : Combo}
    (hc : m.lookup c.codes = some holder) :
    t.insert c = .error (.comboTaken c.codes holder.name) := by
  rw [insert_eq, (place_spec h.tidy c c.codes).1, h.lookup, hc]

lemma Follows.perform_insert (h : t.Follows m) (c : Combo) :
    t.perform (.insert c) = match m.lookup c.codes with
      | none => (.ok none, (t.place c c.codes).2)
      | some holder => (.error (.comboTaken c.codes holder.name), t) := by
  rw [perform]
  cases hl : m.lookup c.codes with
  | none => rw [h.insert_of_none hl]
  | some holder =>
    -- the way to a combo is there already, so making it has changed nothing
    have ht : (t.combo? c.codes).isSome := by
      rw [h.lookup, hl]
      rfl
    rw [h.insert_of_some hl, place_taken h.tidy c ht]

lemma erase_of_none {codes : List UInt16} (h : t.combo? codes = none) :
    t.erase codes = .error (.unknownCombo codes) := by
  rw [← eraseAt_map_fst, Option.map_eq_none_iff] at h
  rw [Trie.erase, h]

lemma exists_erase_of_some {codes : List UInt16} {c : Combo} (h : t.combo? codes = some c) :
    ∃ u, t.eraseAt codes = some (c, u) ∧ t.erase codes = .ok (c, u) := by
  rw [← eraseAt_map_fst] at h
  obtain ⟨⟨d, u⟩, he, hd⟩ := Option.map_eq_some_iff.1 h
  cases hd
  exact ⟨u, he, by rw [Trie.erase, he]⟩

lemma Follows.insert (h : t.Follows m) (c : Combo) :
    (t.perform (.insert c)).1 = (m.perform (.insert c)).1 ∧
      (t.perform (.insert c)).2.Follows (m.perform (.insert c)).2 := by
  rw [h.perform_insert c, Combos.perform]
  cases hl : m.lookup c.codes with
  | some holder => exact ⟨rfl, h⟩
  | none =>
    obtain ⟨-, htidy, hcombo⟩ := place_spec h.tidy c c.codes
    refine ⟨rfl, htidy, fun p => ?_, fun p d hd => ?_⟩
    · rw [hcombo, h.lookup, h.lookup, hl, lookup_insert_eq]
      rfl
    · rw [lookup_insert_eq] at hd
      by_cases hp : p = c.codes
      · rw [if_pos hp, Option.some.injEq] at hd
        rw [hp, hd]
      · rw [if_neg hp] at hd
        exact h.codes p d hd

lemma Follows.erase (h : t.Follows m) (codes : List UInt16) :
    (t.perform (.erase codes)).1 = (m.perform (.erase codes)).1 ∧
      (t.perform (.erase codes)).2.Follows (m.perform (.erase codes)).2 := by
  rw [Combos.perform, Trie.perform]
  cases hl : m.lookup codes with
  | none =>
    rw [erase_of_none ((h.lookup codes).trans hl)]
    exact ⟨rfl, h⟩
  | some c =>
    obtain ⟨u, heraseAt, herase⟩ := exists_erase_of_some ((h.lookup codes).trans hl)
    rw [herase]
    obtain ⟨htidy, hcombo⟩ := eraseAt_spec h.tidy heraseAt
    refine ⟨rfl, htidy, fun p => ?_, fun p d hd => ?_⟩
    · rw [hcombo, h.lookup, lookup_erase_eq]
    · rw [lookup_erase_eq] at hd
      split at hd
      · cases hd
      · exact h.codes p d hd

lemma Follows.perform (h : t.Follows m) (call : Call) :
    (t.perform call).1 = (m.perform call).1 ∧ (t.perform call).2.Follows (m.perform call).2 := by
  cases call with
  | insert c => exact h.insert c
  | erase codes => exact h.erase codes

lemma Follows.replay (h : t.Follows m) (calls : List Call) :
    (replay Trie.perform t calls).1 = (replay Combos.perform m calls).1 ∧
      (replay Trie.perform t calls).2.Follows (replay Combos.perform m calls).2 :=
  replay_simulates (R := Follows) (fun _ _ call h => h.perform call) h calls

/-! ### What the map tells -/

lemma Follows.mem_iff (h : t.Follows m) (p : List UInt16) : p ∈ m ↔ (t.combo? p).isSome := by
  rw [h.lookup, Finmap.lookup_isSome]

lemma Follows.walk_isSome_iff (h : t.Follows m) (p : List UInt16) :
    (t.walk p).isSome ↔ p = [] ∨ ∃ q, p <+: q ∧ q ∈ m := by
  rw [h.tidy.walk_isSome_iff]
  refine or_congr_right ⟨?_, ?_⟩
  · rintro ⟨r, hr⟩
    exact ⟨p ++ r, List.prefix_append p r, (h.mem_iff _).2 hr⟩
  · rintro ⟨q, ⟨r, rfl⟩, hq⟩
    exact ⟨r, (h.mem_iff _).1 hq⟩

lemma Follows.isLeaf_iff (h : t.Follows m) {p : List UInt16} {node : Trie}
    (hw : t.walk p = some node) :
    node.isLeaf = true ↔ ¬∃ q, p <+: q ∧ q ≠ p ∧ q ∈ m := by
  rw [h.tidy.isLeaf_walk_iff hw]
  constructor
  · rintro hn ⟨q, ⟨r, rfl⟩, hne, hq⟩
    rw [h.mem_iff, hn r fun hr => hne (by rw [hr, List.append_nil])] at hq
    cases hq
  · intro hn r hr
    by_contra hne
    refine hn ⟨p ++ r, List.prefix_append p r, ?_, (h.mem_iff _).2 (Option.isSome_iff_ne_none.2 hne)⟩
    exact fun he => hr (List.append_right_eq_self.1 he)

lemma Follows.combo_eq (h : t.Follows m) {p : List UInt16} {node : Trie}
    (hw : t.walk p = some node) : node.combo = m.lookup p := by
  rw [← h.lookup, combo?, hw, Option.bind_some]

lemma Follows.insert_failsIff (h : t.Follows m) (c : Combo) :
    FailsIff t (.insert c) .alreadyExists (c.codes ∈ m) := by
  unfold FailsIff
  rw [h.perform_insert c, ← Finmap.lookup_isSome]
  cases m.lookup c.codes with
  | none => simp
  | some holder =>
    refine ⟨iff_of_true ⟨_, rfl⟩ rfl, ?_⟩
    rintro e ⟨⟩
    exact ⟨rfl, rfl⟩

lemma Follows.erase_failsIff (h : t.Follows m) (codes : List UInt16) :
    FailsIff t (.erase codes) .notFound (codes ∉ m) := by
  unfold FailsIff
  rw [Trie.perform, ← Finmap.lookup_eq_none]
  cases hl : m.lookup codes with
  | none =>
    rw [erase_of_none ((h.lookup codes).trans hl)]
    refine ⟨iff_of_true ⟨_, rfl⟩ rfl, ?_⟩
    rintro e ⟨⟩
    exact ⟨rfl, rfl⟩
  | some c =>
    obtain ⟨u, -, herase⟩ := exists_erase_of_some ((h.lookup codes).trans hl)
    rw [herase]
    simp

lemma Follows.represents (h : t.Follows m) : t.Represents m where
  walk := h.walk_isSome_iff
  steps := foldlM_next t
  combo _ _ := h.combo_eq
  isLeaf _ _ := h.isLeaf_iff
  codes := h.codes
  insert := h.insert_failsIff
  erase := h.erase_failsIff
  erased codes c hl := by
    rw [(h.perform (.erase codes)).1, Combos.perform, hl]

lemma Follows.alike (h : t.Follows m) (hu : u.Follows m) : t.Alike u where
  walk p := by
    have hs : (t.walk p).isSome ↔ (u.walk p).isSome :=
      (h.walk_isSome_iff p).trans (hu.walk_isSome_iff p).symm
    cases ht : t.walk p with
    | none =>
      have hn : u.walk p = none := by simpa [ht] using hs
      rw [hn]
    | some x =>
      obtain ⟨y, hy⟩ : ∃ y, u.walk p = some y := Option.isSome_iff_exists.1 (hs.1 (by rw [ht]; rfl))
      rw [hy, Option.map_some, Option.map_some, view, view, h.combo_eq ht, hu.combo_eq hy]
      have hl : x.isLeaf = y.isLeaf :=
        Bool.eq_iff_iff.2 ((h.isLeaf_iff ht).trans (hu.isLeaf_iff hy).symm)
      rw [hl]
  answers calls := (h.replay calls).1.trans (hu.replay calls).1.symm

/-- A trie answers all calls as a finite map from code sequences does, and what the map holds tells
all that can be seen of the trie. -/
theorem replay_refines_combos (calls : List Call) :
    (replay Trie.perform empty calls).1 = (replay Combos.perform ∅ calls).1 ∧
      (replay Trie.perform empty calls).2.Represents (replay Combos.perform ∅ calls).2 ∧
      ∀ others, (replay Combos.perform ∅ others).2 = (replay Combos.perform ∅ calls).2 →
        (replay Trie.perform empty others).2.Alike (replay Trie.perform empty calls).2 := by
  obtain ⟨hanswers, hfollows⟩ := follows_empty.replay calls
  refine ⟨hanswers, hfollows.represents, fun others hothers => ?_⟩
  have hsame := (follows_empty.replay others).2
  rw [hothers] at hsame
  exact hsame.alike hfollows

/-- A trie that has seen an extension come and go, and one that has not. -/
theorem replay_refines_combos_detour :
    let calls := [Call.insert ⟨"a", [1, 300]⟩]
    let others := [Call.insert ⟨"b", [1, 300, 2]⟩, .insert ⟨"a", [1, 300]⟩, .insert ⟨"c", [1, 300]⟩,
      .erase [1], .erase [1, 300, 2]]
    (replay Combos.perform ∅ others).2 = (replay Combos.perform ∅ calls).2 ∧
      (replay Trie.perform empty others).2.Alike (replay Trie.perform empty calls).2 := by
  intro calls others
  have h : (replay Combos.perform ∅ others).2 = (replay Combos.perform ∅ calls).2 := rfl
  exact ⟨h, (replay_refines_combos calls).2.2 others h⟩

end TransactionEngine.Trie
