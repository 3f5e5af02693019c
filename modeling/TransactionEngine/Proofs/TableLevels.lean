import Mathlib.Algebra.Order.Ring.Nat
import Mathlib.Tactic.Common
import TransactionEngine.SparseTable

/-!
# The levels of a sparse table

A level of a given height reads the lowest digits of a key, one a level. Reading, setting and erasing
take the digits in one order, so each is told by the number that these digits make; a level that is
left empty is told apart from one that holds something.
-/

namespace TransactionEngine.Level

variable {α β : Type}

lemma length_slotsWith (i : Nat) (b : β) : (slotsWith i b).length = width := by
  rw [slotsWith, List.length_set, List.length_replicate]

lemma slotOf_lt (key : UInt16) (below : Nat) : slotOf key below < width :=
  Nat.mod_lt _ (by decide)

lemma slot?_set {slots : List (Option β)} {i : Nat} (hi : i < slots.length) (x : Option β)
    (j : Nat) : slot? (slots.set i x) j = if j = i then x else slot? slots j := by
  unfold slot?
  by_cases h : j = i
  · rw [if_pos h, h, List.getElem?_set_self hi]
    rfl
  · rw [if_neg h, List.getElem?_set_ne (Ne.symm h)]

lemma slot?_set_self {slots : List (Option β)} {i : Nat} (hi : i < slots.length) (x : Option β) :
    slot? (slots.set i x) i = x := by
  rw [slot?_set hi, if_pos rfl]

lemma slot?_slotsWith {i : Nat} (hi : i < width) (b : β) (j : Nat) :
    slot? (slotsWith i b) j = if j = i then some b else none := by
  unfold slotsWith
  rw [slot?_set (by rwa [List.length_replicate])]
  congr 1
  unfold slot?
  rw [List.getElem?_replicate]
  split <;> rfl

lemma slot?_slotsWith_self {i : Nat} (hi : i < width) (b : β) :
    slot? (slotsWith i b) i = some b := by
  rw [slot?_slotsWith hi, if_pos rfl]

lemma set_slot? (slots : List (Option β)) (i : Nat) : slots.set i (slot? slots i) = slots := by
  unfold slot?
  cases hx : slots[i]? with
  | none =>
    have hi : slots.length ≤ i := List.getElem?_eq_none_iff.1 hx
    exact List.set_eq_of_length_le hi
  | some x =>
    obtain ⟨hi, rfl⟩ := List.getElem?_eq_some_iff.1 hx
    exact List.set_getElem_self hi

lemma all_isNone_iff (slots : List (Option β)) :
    slots.all Option.isNone = true ↔ ∀ i, slot? slots i = none := by
  rw [List.all_eq_true]
  constructor
  · intro h i
    unfold slot?
    cases hx : slots[i]? with
    | none => rfl
    | some x => exact Option.isNone_iff_eq_none.1 (h x (List.mem_of_getElem? hx))
  · intro h x hx
    obtain ⟨i, hi⟩ := List.mem_iff_getElem?.1 hx
    have hn := h i
    rw [slot?, hi] at hn
    exact Option.isNone_iff_eq_none.2 hn

lemma all_isNone_of_slot? {slots : List (Option β)} {i : Nat} {b : β}
    (h : slot? slots i = some b) : slots.all Option.isNone = false := by
  rw [Bool.eq_false_iff]
  intro hall
  rw [(all_isNone_iff slots).1 hall i] at h
  cases h

lemma exists_slot?_of_used {slots : List (Option β)} (h : slots.all Option.isNone = false) :
    ∃ i b, slot? slots i = some b := by
  by_contra hn
  refine Bool.eq_false_iff.1 h ((all_isNone_iff slots).2 fun i => ?_)
  exact Option.eq_none_iff_forall_ne_some.2 fun b hb => hn ⟨i, b, hb⟩

lemma lt_of_slot? {slots : List (Option β)} {i : Nat} {b : β} (h : slot? slots i = some b) :
    i < slots.length :=
  (List.getElem?_eq_some_iff.1 (Option.join_eq_some_iff.1 h)).1

/-- The number that the digits of a key make which a level with `below` levels under it reads. -/
def address (key : UInt16) (below : Nat) : Nat :=
  key.toNat % width ^ (below + 1)

lemma address_zero (key : UInt16) : address key 0 = slotOf key 0 := by
  simp [address, slotOf]

lemma address_succ (key : UInt16) (below : Nat) :
    address key (below + 1) =
      address key below + width ^ (below + 1) * slotOf key (below + 1) := by
  unfold address slotOf
  rw [Nat.mod_pow_succ]
  rfl

lemma address_lt (key : UInt16) (below : Nat) : address key below < width ^ (below + 1) :=
  Nat.mod_lt _ (Nat.pow_pos (by decide))

lemma address_succ_eq_iff (key : UInt16) {below n i : Nat} (hn : n < width ^ (below + 1)) :
    address key (below + 1) = n + width ^ (below + 1) * i ↔
      slotOf key (below + 1) = i ∧ address key below = n := by
  rw [address_succ]
  constructor
  · intro h
    have hm := congrArg (· % width ^ (below + 1)) h
    simp only [Nat.add_mul_mod_self_left, Nat.mod_eq_of_lt hn,
      Nat.mod_eq_of_lt (address_lt key below)] at hm
    rw [hm, Nat.add_left_cancel_iff] at h
    exact ⟨Nat.eq_of_mul_eq_mul_left (Nat.pow_pos (by decide)) h, hm⟩
  · rintro ⟨hs, hm⟩
    rw [hs, hm]

lemma address_succ_inj (k key : UInt16) (below : Nat) :
    address k (below + 1) = address key (below + 1) ↔
      slotOf k (below + 1) = slotOf key (below + 1) ∧ address k below = address key below := by
  rw [address_succ key]
  exact address_succ_eq_iff k (address_lt key below)

lemma address_of_lt {key : UInt16} {below : Nat} (h : key.toNat < width ^ (below + 1)) :
    address key below = key.toNat :=
  Nat.mod_eq_of_lt h

/-- A level with `below` levels under it on every way down, where no level under it is empty. -/
inductive Shaped : Nat → Level α → Prop where
  | leaf {slots : List (Option α)} (length : slots.length = width) : Shaped 0 (leaf slots)
  | branch {slots : List (Option (Level α))} {below : Nat} (length : slots.length = width)
      (shaped : ∀ i level, slot? slots i = some level → Shaped below level)
      (used : ∀ i level, slot? slots i = some level → level.isEmpty = false) :
      Shaped (below + 1) (branch slots)

lemma get?_leaf (k : UInt16) (below : Nat) (slots : List (Option α)) :
    get? k below (leaf slots) = slot? slots (slotOf k below) := by
  cases below <;> rfl

lemma get?_succ (k : UInt16) (below : Nat) (slots : List (Option (Level α))) :
    get? k (below + 1) (branch slots) =
      (slot? slots (slotOf k (below + 1))).bind (get? k below) := rfl

lemma get?_of_isEmpty {level : Level α} (h : level.isEmpty = true) (k : UInt16) (below : Nat) :
    get? k below level = none := by
  cases level with
  | leaf slots =>
    rw [get?_leaf]
    exact (all_isNone_iff slots).1 h _
  | branch slots =>
    cases below with
    | zero => rfl
    | succ below =>
      rw [get?_succ, (all_isNone_iff slots).1 h]
      rfl

lemma bind_nonempty? (level : Level α) (k : UInt16) (below : Nat) :
    level.nonempty?.bind (get? k below) = get? k below level := by
  unfold nonempty?
  by_cases h : level.isEmpty = true
  · rw [if_pos h, get?_of_isEmpty h]
    rfl
  · rw [if_neg h]
    rfl

lemma nonempty?_eq_some {level l : Level α} (h : level.nonempty? = some l) :
    l = level ∧ l.isEmpty = false := by
  unfold nonempty? at h
  by_cases he : level.isEmpty = true
  · rw [if_pos he] at h
    cases h
  · rw [if_neg he] at h
    cases h
    exact ⟨rfl, Bool.eq_false_iff.2 he⟩

lemma get?_single (k key : UInt16) (a : α) (below : Nat) :
    get? k below (single key a below) =
      if address k below = address key below then some a else none := by
  induction below with
  | zero => rw [single, get?_leaf, slot?_slotsWith (slotOf_lt _ _), address_zero, address_zero]
  | succ below ih =>
    rw [single, get?_succ, slot?_slotsWith (slotOf_lt _ _)]
    simp only [address_succ_inj]
    by_cases h : slotOf k (below + 1) = slotOf key (below + 1)
    · rw [if_pos h, Option.bind_some, ih]
      simp only [h, true_and]
    · rw [if_neg h, if_neg fun hk => h hk.1]
      rfl

lemma isEmpty_single (key : UInt16) (a : α) (below : Nat) :
    (single key a below).isEmpty = false := by
  cases below with
  | zero => exact all_isNone_of_slot? (slot?_slotsWith_self (slotOf_lt key 0) a)
  | succ below =>
    exact all_isNone_of_slot? (slot?_slotsWith_self (slotOf_lt key (below + 1)) (single key a below))

lemma Shaped.alone {level : Level α} {below i : Nat} (hi : i < width) (h : Shaped below level)
    (hu : level.isEmpty = false) : Shaped (below + 1) (.branch (slotsWith i level)) := by
  have hl {j : Nat} {l : Level α} (hj : slot? (slotsWith i level) j = some l) : l = level := by
    rw [slot?_slotsWith hi] at hj
    split at hj
    · exact (Option.some.inj hj).symm
    · cases hj
  refine .branch (length_slotsWith _ _) ?_ ?_
  · intro j l hj
    exact hl hj ▸ h
  · intro j l hj
    exact hl hj ▸ hu

lemma shaped_single (key : UInt16) (a : α) (below : Nat) : Shaped below (single key a below) := by
  induction below with
  | zero => exact .leaf (length_slotsWith _ _)
  | succ below ih => exact ih.alone (slotOf_lt _ _) (isEmpty_single _ _ _)

lemma Shaped.replace {slots : List (Option (Level α))} {below i : Nat} {x : Option (Level α)}
    (h : Shaped (below + 1) (.branch slots)) (hx : ∀ l, x = some l → Shaped below l)
    (hu : ∀ l, x = some l → l.isEmpty = false) :
    Shaped (below + 1) (.branch (slots.set i x)) := by
  cases h with
  | branch length shaped used =>
    -- what is in a slot now is the new level or was there before
    have hj {j : Nat} {l : Level α} (h : slot? (slots.set i x) j = some l) :
        x = some l ∨ slot? slots j = some l := by
      by_cases hi : i < slots.length
      · rw [slot?_set hi] at h
        split at h
        · exact .inl h
        · exact .inr h
      · rw [List.set_eq_of_length_le (Nat.le_of_not_lt hi)] at h
        exact .inr h
    refine .branch (by rwa [List.length_set]) ?_ ?_
    · intro j l hl
      exact (hj hl).elim (hx l) (shaped j l)
    · intro j l hl
      exact (hj hl).elim (hu l) (used j l)

/-- The level under a slot after a key was set in it. -/
def setBelow (key : UInt16) (a : α) (below : Nat) (x : Option (Level α)) : Level α :=
  match x with
  | some level => set key a below level
  | none => single key a below

lemma set_leaf (key : UInt16) (a : α) (below : Nat) (slots : List (Option α)) :
    set key a below (leaf slots) = leaf (slots.set (slotOf key below) (some a)) := by
  cases below <;> rfl

lemma set_succ (key : UInt16) (a : α) (below : Nat) (slots : List (Option (Level α))) :
    set key a (below + 1) (branch slots) =
      branch (slots.set (slotOf key (below + 1))
        (some (setBelow key a below (slot? slots (slotOf key (below + 1)))))) := by
  rw [set]
  cases slot? slots (slotOf key (below + 1)) <;> rfl

lemma isEmpty_set {level : Level α} {below : Nat} (h : Shaped below level) (key : UInt16) (a : α) :
    (set key a below level).isEmpty = false := by
  cases h with
  | leaf length =>
    rw [set_leaf]
    exact all_isNone_of_slot? (slot?_set_self (length ▸ slotOf_lt key 0) (some a))
  | branch length shaped used =>
    rw [set_succ]
    exact all_isNone_of_slot? (slot?_set_self (length ▸ slotOf_lt key _) _)

lemma shaped_set {level : Level α} {below : Nat} (h : Shaped below level) (key : UInt16) (a : α) :
    Shaped below (set key a below level) := by
  induction h with
  | leaf length =>
    rw [set_leaf]
    exact .leaf (by rwa [List.length_set])
  | @branch slots below length shaped used ih =>
    rw [set_succ]
    apply (Shaped.branch length shaped used).replace <;> rintro l ⟨⟩
    · cases hs : slot? slots (slotOf key (below + 1)) with
      | none => exact shaped_single key a below
      | some level => exact ih _ level hs
    · cases hs : slot? slots (slotOf key (below + 1)) with
      | none => exact isEmpty_single key a below
      | some level => exact isEmpty_set (shaped _ level hs) key a

lemma get?_set {level : Level α} {below : Nat} (h : Shaped below level) (k key : UInt16) (a : α) :
    get? k below (set key a below level) =
      if address k below = address key below then some a else get? k below level := by
  induction h with
  | leaf length =>
    rw [set_leaf, get?_leaf, get?_leaf, slot?_set (length ▸ slotOf_lt key 0), address_zero,
      address_zero]
  | @branch slots below length shaped used ih =>
    rw [set_succ, get?_succ, get?_succ, slot?_set (length ▸ slotOf_lt key _)]
    simp only [address_succ_inj]
    by_cases hk : slotOf k (below + 1) = slotOf key (below + 1)
    · rw [if_pos hk, Option.bind_some, hk]
      simp only [true_and]
      cases hs : slot? slots (slotOf key (below + 1)) with
      | none => exact get?_single k key a below
      | some level => exact ih _ level hs
    · rw [if_neg hk, if_neg fun h => hk h.1]

lemma set_get? {level : Level α} {key : UInt16} {a : α} {below : Nat}
    (h : get? key below level = some a) : set key a below level = level := by
  induction below generalizing level with
  | zero =>
    cases level with
    | leaf slots =>
      rw [get?_leaf] at h
      rw [set_leaf, ← h, set_slot?]
    | branch slots => rfl
  | succ below ih =>
    cases level with
    | leaf slots =>
      rw [get?_leaf] at h
      rw [set_leaf, ← h, set_slot?]
    | branch slots =>
      rw [get?_succ] at h
      obtain ⟨level, hs, hl⟩ := Option.bind_eq_some_iff.1 h
      rw [set_succ, hs, setBelow, ih hl, ← hs, set_slot?]

lemma slotsWith_set (i : Nat) (b b' : β) : (slotsWith i b).set i (some b') = slotsWith i b' :=
  List.set_set ..

lemma set_single (key : UInt16) (a b : α) (below : Nat) :
    set key b below (single key a below) = single key b below := by
  induction below with
  | zero => rw [single, single, set_leaf, slotsWith_set]
  | succ below ih =>
    rw [single, set_succ, slot?_slotsWith (slotOf_lt _ _), if_pos rfl, setBelow, ih, slotsWith_set,
      single]

lemma set_set {level : Level α} {below : Nat} (h : Shaped below level) (key : UInt16) (a b : α) :
    set key b below (set key a below level) = set key b below level := by
  induction h with
  | leaf length => rw [set_leaf, set_leaf, set_leaf, List.set_set]
  | @branch slots below length shaped used ih =>
    rw [set_succ, set_succ, set_succ, slot?_set (length ▸ slotOf_lt key _), if_pos rfl,
      List.set_set]
    congr 3
    cases hs : slot? slots (slotOf key (below + 1)) with
    | none => exact set_single key a b below
    | some level => exact ih _ level hs

lemma erase_leaf (key : UInt16) (below : Nat) (slots : List (Option α)) :
    erase key below (leaf slots) = leaf (slots.set (slotOf key below) none) := by
  cases below <;> rfl

lemma erase_succ (key : UInt16) (below : Nat) (slots : List (Option (Level α))) :
    erase key (below + 1) (branch slots) =
      branch (slots.set (slotOf key (below + 1))
        ((slot? slots (slotOf key (below + 1))).bind fun level =>
          (erase key below level).nonempty?)) := by
  rw [erase]
  cases hs : slot? slots (slotOf key (below + 1)) with
  | some level => rfl
  | none =>
    dsimp only [Option.bind_none]
    rw [← hs, set_slot?]

lemma shaped_erase {level : Level α} {below : Nat} (h : Shaped below level) (key : UInt16) :
    Shaped below (erase key below level) := by
  induction h with
  | leaf length =>
    rw [erase_leaf]
    exact .leaf (by rwa [List.length_set])
  | @branch slots below length shaped used ih =>
    rw [erase_succ]
    apply (Shaped.branch length shaped used).replace
    · intro l hl
      obtain ⟨level, hs, hl⟩ := Option.bind_eq_some_iff.1 hl
      rw [(nonempty?_eq_some hl).1]
      exact ih _ level hs
    · intro l hl
      obtain ⟨level, -, hl⟩ := Option.bind_eq_some_iff.1 hl
      exact (nonempty?_eq_some hl).2

lemma get?_erase {level : Level α} {below : Nat} (h : Shaped below level) (k key : UInt16) :
    get? k below (erase key below level) =
      if address k below = address key below then none else get? k below level := by
  induction h with
  | leaf length =>
    rw [erase_leaf, get?_leaf, get?_leaf, slot?_set (length ▸ slotOf_lt key 0), address_zero,
      address_zero]
  | @branch slots below length shaped used ih =>
    rw [erase_succ, get?_succ, get?_succ, slot?_set (length ▸ slotOf_lt key _)]
    simp only [address_succ_inj]
    by_cases hk : slotOf k (below + 1) = slotOf key (below + 1)
    · rw [if_pos hk, hk]
      simp only [true_and]
      cases hs : slot? slots (slotOf key (below + 1)) with
      | none =>
        dsimp only [Option.bind_none]
        split <;> rfl
      | some level =>
        dsimp only [Option.bind_some]
        rw [bind_nonempty?]
        exact ih _ level hs
    · rw [if_neg hk, if_neg fun h => hk h.1]

/-! ### Levels on top of one another -/

lemma slotOf_eq_zero_iff {k : UInt16} {below : Nat} (h : k.toNat < width ^ (below + 2)) :
    slotOf k (below + 1) = 0 ↔ k.toNat < width ^ (below + 1) := by
  have hp : 0 < width ^ (below + 1) := Nat.pow_pos (by decide)
  have hd : k.toNat / width ^ (below + 1) < width :=
    Nat.div_lt_of_lt_mul (by rwa [← Nat.pow_succ])
  change k.toNat / width ^ (below + 1) % width = 0 ↔ _
  rw [Nat.mod_eq_of_lt hd, Nat.div_eq_zero_iff]
  omega

lemma get?_wrap {k : UInt16} {below n : Nat} (h : k.toNat < width ^ (below + n + 1))
    (level : Level α) :
    get? k (below + n) (SparseTable.wrap n level) =
      if k.toNat < width ^ (below + 1) then get? k below level else none := by
  induction n generalizing below level with
  | zero => exact (if_pos h).symm
  | succ n ih =>
    have hb : below + (n + 1) = below + 1 + n := by omega
    rw [hb] at h ⊢
    rw [SparseTable.wrap, ih h, get?_succ, slot?_slotsWith (by decide)]
    by_cases hk : k.toNat < width ^ (below + 2)
    · -- only the keys whose digit is zero go on to the level that was there
      rw [if_pos hk]
      simp only [slotOf_eq_zero_iff hk]
      split <;> rfl
    · have hle : width ^ (below + 1) ≤ width ^ (below + 2) :=
        Nat.pow_le_pow_right (by decide) (by omega)
      rw [if_neg hk, if_neg (by omega)]

lemma Shaped.wrap {level : Level α} {below : Nat} (h : Shaped below level)
    (hu : level.isEmpty = false) (n : Nat) :
    Shaped (below + n) (SparseTable.wrap n level) ∧
      (SparseTable.wrap n level).isEmpty = false := by
  induction n generalizing below level with
  | zero => exact ⟨h, hu⟩
  | succ n ih =>
    have hs : slot? (slotsWith 0 level) 0 = some level := slot?_slotsWith_self (by decide) level
    have hb : below + (n + 1) = below + 1 + n := by omega
    rw [hb, SparseTable.wrap]
    exact ih (h.alone (by decide) hu) (all_isNone_of_slot? hs)

/-- The slots on the way down to a value. -/
inductive Holds : List Nat → α → Level α → Prop where
  | leaf {slots : List (Option α)} {i : Nat} {a : α} (h : slot? slots i = some a) :
      Holds [i] a (leaf slots)
  | branch {slots : List (Option (Level α))} {level : Level α} {i : Nat} {path : List Nat} {a : α}
      (h : slot? slots i = some level) (below : Holds path a level) :
      Holds (i :: path) a (branch slots)

/-- A level itself or one somewhere under it. -/
inductive Within (l : Level α) : Level α → Prop where
  | here : Within l l
  | under {slots : List (Option (Level α))} {level : Level α} {i : Nat}
      (h : slot? slots i = some level) (below : Within l level) : Within l (branch slots)

lemma Holds.length_eq {level : Level α} {path : List Nat} {a : α} {below : Nat}
    (h : Holds path a level) (hs : Shaped below level) : path.length = below + 1 := by
  induction h generalizing below with
  | leaf =>
    cases hs
    rfl
  | branch hi hl ih =>
    cases hs with
    | branch length shaped used => rw [List.length_cons, ih (shaped _ _ hi)]

lemma Within.used {level l : Level α} {below : Nat} (h : Within l level) (hs : Shaped below level)
    (hu : level.isEmpty = false) : l.isEmpty = false := by
  induction h generalizing below with
  | here => exact hu
  | under hi hl ih =>
    cases hs with
    | branch length shaped used => exact ih (shaped _ _ hi) (used _ _ hi)

/-- A level that is in use holds a value, and the slots on the way make the key. -/
lemma exists_address_of_used {level : Level α} {below : Nat} (h : Shaped below level)
    (hu : level.isEmpty = false) :
    ∃ n a, n < width ^ (below + 1) ∧
      ∀ key, address key below = n → get? key below level = some a := by
  induction h with
  | leaf length =>
    obtain ⟨i, a, hi⟩ := exists_slot?_of_used hu
    refine ⟨i, a, ?_, ?_⟩
    · rw [Nat.pow_one, ← length]
      exact lt_of_slot? hi
    · intro key hk
      rw [get?_leaf, ← address_zero, hk, hi]
  | @branch slots below length shaped used ih =>
    obtain ⟨i, level, hi⟩ := exists_slot?_of_used hu
    obtain ⟨n, a, hn, ha⟩ := ih i level hi (used i level hi)
    have hlt : i < width := length ▸ lt_of_slot? hi
    -- the slot is the most significant digit, and the rest is the number from below
    refine ⟨n + width ^ (below + 1) * i, a, ?_, ?_⟩
    · calc n + width ^ (below + 1) * i < width ^ (below + 1) * (i + 1) := by
            rw [Nat.mul_succ]
            omega
        _ ≤ width ^ (below + 1) * width := Nat.mul_le_mul_left _ hlt
        _ = width ^ (below + 1 + 1) := (Nat.pow_succ ..).symm
    · intro key hk
      obtain ⟨hs, hk⟩ := (address_succ_eq_iff key hn).1 hk
      rw [get?_succ, hs, hi]
      exact ha key hk

end TransactionEngine.Level
