import TransactionEngine.Proofs.Replays
import TransactionEngine.Proofs.TableContents

/-!
# What a sparse table has been through

Calls to a table, next to the same calls to a finite map that also notes which keys were inserted
since it was last empty. Both give the same answers, and the map tells the size and the depth of the
table.
-/

namespace TransactionEngine.SparseTable

open Level (width Holds Within)

variable {α : Type}

/-- What a table can be asked for. -/
inductive Call (α : Type) where
  | insertNew (key : UInt16) (a : α)
  | modify (key : UInt16) (f : α → α)
  | get (key : UInt16)
  | covers (key : UInt16)
  | erase (key : UInt16)

inductive Answer (α : Type) where
  | value (a : Option α)
  | flag (b : Bool)

def perform (t : SparseTable α) : Call α → Answer α × SparseTable α
  | .insertNew key a =>
    let (b, t) := t.insertNew key a
    (.value (some b), t)
  | .modify key f =>
    let (b, t) := t.modify key f
    (.value b, t)
  | .get key => (.value (t.get? key), t)
  | .covers key => (.flag (t.covers key), t)
  | .erase key =>
    let (b, t) := t.erase key
    (.value b, t)

/-- A finite map, with the keys that were inserted since it was last empty. -/
structure Ledger (α : Type) where
  entries : Finmap fun _ : UInt16 => α
  inserted : List UInt16

namespace Ledger

def empty : Ledger α :=
  ⟨∅, []⟩

/-- The number of hexadecimal digits of the longest key that was inserted, at least one. -/
def depth (m : Ledger α) : Nat :=
  (m.inserted.map fun key => (Nat.digits 16 key.toNat).length).foldr max 1

def perform (m : Ledger α) : Call α → Answer α × Ledger α
  | .insertNew key a =>
    match m.entries.lookup key with
    | some b => (.value (some b), m)
    | none => (.value (some a), ⟨m.entries.insert key a, key :: m.inserted⟩)
  | .modify key f =>
    match m.entries.lookup key with
    | some a => (.value (some (f a)), { m with entries := m.entries.insert key (f a) })
    | none => (.value none, m)
  | .get key => (.value (m.entries.lookup key), m)
  | .covers key => (.flag (decide (key.toNat < 16 ^ m.depth)), m)
  | .erase key =>
    let entries := m.entries.erase key
    (.value (m.entries.lookup key), ⟨entries, if entries.keys = ∅ then [] else m.inserted⟩)

end Ledger

/-- The table holds what the map holds, in levels that are all of use and reach to its depth. -/
structure Represents (t : SparseTable α) (m : Ledger α) : Prop where
  get? : ∀ key, t.get? key = m.entries.lookup key
  size : t.size = m.entries.keys.card
  isEmpty : t.isEmpty = true ↔ t.size = 0
  depth : t.depth = m.depth
  covers : ∀ key, t.covers key = true ↔ key.toNat < 16 ^ t.depth
  holds : ∀ root path a, t.root = some root → Holds path a root → path.length = t.depth
  used : ∀ root level, t.root = some root → Within level root → level.isEmpty = false

/-- What ties a table to its map while calls are made. -/
structure Follows (t : SparseTable α) (m : Ledger α) : Prop where
  sound : t.Sound
  lookup : ∀ key, t.get? key = m.entries.lookup key
  depth : t.depth = m.depth

variable {t : SparseTable α} {m : Ledger α}

lemma follows_empty : (empty : SparseTable α).Follows .empty where
  sound := sound_empty
  lookup key := get?_rootless key _ _
  depth := rfl

lemma Follows.represents (h : t.Follows m) : t.Represents m where
  get? := h.lookup
  size := by
    obtain ⟨keys, hcard, hkeys⟩ := h.sound.counted
    have he : keys = m.entries.keys := by
      ext key
      rw [hkeys, h.lookup, Finmap.lookup_isSome, Finmap.mem_keys]
    rw [← hcard, he]
  isEmpty := beq_iff_eq
  depth := h.depth
  covers := covers_iff h.sound.pos
  holds root path a hr hp := by
    have hl := hp.length_eq (h.sound.shaped root hr)
    have hpos := h.sound.pos
    omega
  used root level hr hw := hw.used (h.sound.shaped root hr) (h.sound.used root hr)

/-! ### One call -/

lemma Follows.insertNew (h : t.Follows m) (key : UInt16) (a : α) :
    (t.perform (.insertNew key a)).1 = (m.perform (.insertNew key a)).1 ∧
      (t.perform (.insertNew key a)).2.Follows (m.perform (.insertNew key a)).2 := by
  cases hk : m.entries.lookup key with
  | some b =>
    have ht : t.perform (.insertNew key a) = (.value (some b), t) := by
      rw [perform, insertNew_of_some ((h.lookup key).trans hk)]
    have hm : m.perform (.insertNew key a) = (.value (some b), m) := by
      rw [Ledger.perform, hk]
    rw [ht, hm]
    exact ⟨rfl, h⟩
  | none =>
    have ht : t.perform (.insertNew key a) = (.value (some a), t.set key a) := by
      rw [perform, insertNew_of_none ((h.lookup key).trans hk)]
    have hm : m.perform (.insertNew key a) =
        (.value (some a), ⟨m.entries.insert key a, key :: m.inserted⟩) := by
      rw [Ledger.perform, hk]
    rw [ht, hm]
    refine ⟨rfl, h.sound.set key a, ?_, ?_⟩
    · intro k
      rw [get?_set h.sound, h.lookup, lookup_insert_eq]
    · change max t.depth (digits key) = max (Nat.digits 16 key.toNat).length m.depth
      rw [digits_eq, ← h.depth, ← max_assoc, max_eq_left h.sound.pos, max_comm]

lemma Follows.modify (h : t.Follows m) (key : UInt16) (f : α → α) :
    (t.perform (.modify key f)).1 = (m.perform (.modify key f)).1 ∧
      (t.perform (.modify key f)).2.Follows (m.perform (.modify key f)).2 := by
  cases hk : m.entries.lookup key with
  | none =>
    have ht : t.perform (.modify key f) = (.value none, t) := by
      rw [perform, modify_of_none ((h.lookup key).trans hk)]
    have hm : m.perform (.modify key f) = (.value none, m) := by
      rw [Ledger.perform, hk]
    rw [ht, hm]
    exact ⟨rfl, h⟩
  | some a =>
    have ha : t.get? key = some a := (h.lookup key).trans hk
    have ht : t.perform (.modify key f) = (.value (some (f a)), t.set key (f a)) := by
      rw [perform, modify_of_some ha]
    have hm : m.perform (.modify key f) =
        (.value (some (f a)), { m with entries := m.entries.insert key (f a) }) := by
      rw [Ledger.perform, hk]
    rw [ht, hm]
    refine ⟨rfl, h.sound.set key (f a), ?_, ?_⟩
    · intro k
      rw [get?_set h.sound, h.lookup, lookup_insert_eq]
    · rw [set_depth, growTo_of_get? h.sound.pos (Option.isSome_iff_exists.2 ⟨a, ha⟩)]
      exact h.depth

lemma Follows.erase (h : t.Follows m) (key : UInt16) :
    (t.perform (.erase key)).1 = (m.perform (.erase key)).1 ∧
      (t.perform (.erase key)).2.Follows (m.perform (.erase key)).2 := by
  have hlookup (k : UInt16) : (t.erase key).2.get? k = (m.entries.erase key).lookup k := by
    rw [get?_erase h.sound, h.lookup, lookup_erase_eq]
  have hroot : (t.erase key).2.root = none ↔ (m.entries.erase key).keys = ∅ := by
    rw [(h.sound.erase key).root_eq_none_iff, Finset.eq_empty_iff_forall_notMem]
    simp only [hlookup, Finmap.lookup_eq_none, Finmap.mem_keys]
  refine ⟨?_, h.sound.erase key, hlookup, ?_⟩
  · change Answer.value (t.erase key).1 = Answer.value (m.entries.lookup key)
    rw [erase_fst, h.lookup]
  · change (t.erase key).2.depth =
      Ledger.depth ⟨_, if (m.entries.erase key).keys = ∅ then [] else m.inserted⟩
    by_cases he : (m.entries.erase key).keys = ∅
    · rw [if_pos he]
      exact (h.sound.erase key).fresh (hroot.2 he)
    · rw [if_neg he, depth_erase_of_root (mt hroot.1 he)]
      exact h.depth

lemma Follows.perform (h : t.Follows m) (call : Call α) :
    (t.perform call).1 = (m.perform call).1 ∧ (t.perform call).2.Follows (m.perform call).2 := by
  cases call with
  | insertNew key a => exact h.insertNew key a
  | modify key f => exact h.modify key f
  | get key =>
    refine ⟨?_, h⟩
    change Answer.value (t.get? key) = Answer.value (m.entries.lookup key)
    rw [h.lookup]
  | covers key =>
    refine ⟨congrArg Answer.flag ?_, h⟩
    rw [Bool.eq_iff_iff, covers_iff h.sound.pos, h.depth, decide_eq_true_iff]
    rfl
  | erase key => exact h.erase key

/-- A table answers all calls as a finite map does. The size counts the keys of the map, the depth is
what the longest key needs that was inserted since the map was last empty, and there are no levels
but those on the way to a value. -/
theorem replay_refines_map (calls : List (Call α)) :
    (replay perform (empty : SparseTable α) calls).1 =
        (replay Ledger.perform Ledger.empty calls).1 ∧
      (replay perform (empty : SparseTable α) calls).2.Represents
        (replay Ledger.perform Ledger.empty calls).2 := by
  obtain ⟨hanswers, hfollows⟩ := replay_simulates (R := Follows)
    (fun _ _ call h => h.perform call) follows_empty calls
  exact ⟨hanswers, hfollows.represents⟩

end TransactionEngine.SparseTable
