import Mathlib.Data.Nat.Digits.Lemmas
import TransactionEngine.Proofs.TableLevels

/-!
# What a sparse table holds

A table answers every call as a finite map from its keys does, and it is as deep as the longest key
asks for that was inserted since it was last empty.
-/

namespace TransactionEngine

namespace SparseTable

open Level (width Shaped)

variable {α : Type} {t : SparseTable α}

lemma digits_pos (key : UInt16) : 1 ≤ digits key := by
  unfold digits
  split_ifs <;> decide

lemma digits_le_four (key : UInt16) : digits key ≤ 4 := by
  unfold digits
  split_ifs <;> decide

lemma digits_le_iff (key : UInt16) {n : Nat} (hn : 1 ≤ n) :
    digits key ≤ n ↔ key.toNat < width ^ n := by
  have hkey : key.toNat < 65536 := key.toNat_lt
  rcases n with _ | _ | _ | _ | n
  · omega
  · simp only [digits, width]
    split_ifs <;> omega
  · simp only [digits, width]
    split_ifs <;> omega
  · simp only [digits, width]
    split_ifs <;> omega
  · have hle : 65536 ≤ width ^ (n + 4) := Nat.pow_le_pow_right (n := width) (by decide) (Nat.le_add_left 4 n)
    exact iff_of_true ((digits_le_four key).trans (Nat.le_add_left 4 n)) (hkey.trans_le hle)

/-- The digits of a key are those of its number, except that zero has one too. -/
lemma digits_eq (key : UInt16) : digits key = max 1 (Nat.digits 16 key.toNat).length := by
  have h (n : Nat) (hn : 1 ≤ n) : digits key ≤ n ↔ max 1 (Nat.digits 16 key.toNat).length ≤ n := by
    rw [digits_le_iff key hn, max_le_iff, width, Nat.digits_length_le_iff (by decide)]
    exact ⟨fun hk => ⟨hn, hk⟩, And.right⟩
  exact le_antisymm ((h _ (le_max_left _ _)).2 le_rfl) ((h _ (digits_pos key)).1 le_rfl)

lemma covers_iff (ht : 1 ≤ t.depth) (key : UInt16) :
    t.covers key = true ↔ key.toNat < width ^ t.depth := by
  rw [covers, decide_eq_true_iff, digits_le_iff key ht]

/-- All values are `depth` levels below the root, no level is empty, and the size counts the keys. -/
structure Sound (t : SparseTable α) : Prop where
  pos : 1 ≤ t.depth
  shaped : ∀ level, t.root = some level → Shaped (t.depth - 1) level
  used : ∀ level, t.root = some level → level.isEmpty = false
  fresh : t.root = none → t.depth = 1
  le_four : t.depth ≤ 4
  counted : ∃ keys : Finset UInt16, keys.card = t.size ∧ ∀ key, key ∈ keys ↔ (t.get? key).isSome

lemma get?_rootless (key : UInt16) (depth size : Nat) :
    get? ⟨depth, (none : Option (Level α)), size⟩ key = none := by
  unfold get?
  split <;> rfl

lemma sound_empty : (empty : SparseTable α).Sound where
  pos := le_rfl
  shaped _ h := nomatch h
  used _ h := nomatch h
  fresh _ := rfl
  le_four := Nat.le_add_left 1 3
  counted := ⟨∅, rfl, by simp [empty, get?_rootless]⟩

lemma get?_of_lt (ht : 1 ≤ t.depth) {key : UInt16} (h : key.toNat < width ^ t.depth) :
    t.get? key = t.root.bind (Level.get? key (t.depth - 1)) := by
  rw [get?, if_pos ((covers_iff ht key).2 h)]

lemma get?_of_le (ht : 1 ≤ t.depth) {key : UInt16} (h : width ^ t.depth ≤ key.toNat) :
    t.get? key = none := by
  rw [get?, if_neg fun hc => absurd ((covers_iff ht key).1 hc) (Nat.not_lt.2 h)]

lemma lt_of_get?_isSome (ht : 1 ≤ t.depth) {key : UInt16} (h : (t.get? key).isSome) :
    key.toNat < width ^ t.depth := by
  by_contra hk
  rw [get?_of_le ht (Nat.le_of_not_lt hk)] at h
  cases h

lemma address_inj (ht : 1 ≤ t.depth) {k key : UInt16} (hk : k.toNat < width ^ t.depth)
    (hkey : key.toNat < width ^ t.depth) :
    Level.address k (t.depth - 1) = Level.address key (t.depth - 1) ↔ k = key := by
  have hd : t.depth - 1 + 1 = t.depth := Nat.sub_add_cancel ht
  rw [Level.address_of_lt (hd ▸ hk), Level.address_of_lt (hd ▸ hkey), UInt16.toNat_inj]

/-- A table has no root only if it has no keys. -/
lemma Sound.exists_get? (h : t.Sound) {level : Level α} (hr : t.root = some level) :
    ∃ key a, t.get? key = some a := by
  obtain ⟨n, a, hn, ha⟩ := Level.exists_address_of_used (h.shaped level hr) (h.used level hr)
  have hd : t.depth - 1 + 1 = t.depth := Nat.sub_add_cancel h.pos
  rw [hd] at hn
  have hle : width ^ t.depth ≤ width ^ 4 := Nat.pow_le_pow_right (by decide) h.le_four
  have h4 : width ^ 4 = 65536 := rfl
  have hk : (UInt16.ofNat n).toNat = n := UInt16.toNat_ofNat_of_lt' (hn.trans_le (hle.trans_eq h4))
  refine ⟨UInt16.ofNat n, a, ?_⟩
  rw [get?_of_lt h.pos (by rwa [hk]), hr]
  exact ha _ (by rw [Level.address_of_lt (by rwa [hk, hd]), hk])

lemma Sound.root_eq_none_iff (h : t.Sound) : t.root = none ↔ ∀ key, t.get? key = none := by
  constructor
  · intro hr key
    rw [get?, hr]
    split <;> rfl
  · intro hn
    rw [Option.eq_none_iff_forall_ne_some]
    intro level hr
    obtain ⟨key, a, ha⟩ := h.exists_get? hr
    rw [hn key] at ha
    cases ha

lemma Sound.isEmpty_iff (h : t.Sound) : t.isEmpty = true ↔ ∀ key, t.get? key = none := by
  obtain ⟨keys, hcard, hkeys⟩ := h.counted
  unfold isEmpty
  rw [beq_iff_eq, ← hcard, Finset.card_eq_zero, Finset.eq_empty_iff_forall_notMem]
  simp only [hkeys, Option.not_isSome_iff_eq_none]

lemma root_growTo (t : SparseTable α) (key : UInt16) :
    (t.growTo key).root = t.root.map (wrap ((t.growTo key).depth - t.depth)) := rfl

lemma depth_growTo (t : SparseTable α) (key : UInt16) :
    (t.growTo key).depth = max t.depth (digits key) := rfl

lemma lt_growTo (key : UInt16) : key.toNat < width ^ (t.growTo key).depth := by
  rw [depth_growTo, ← digits_le_iff key (le_max_of_le_right (digits_pos key))]
  exact le_max_right _ _

lemma below_growTo (ht : 1 ≤ t.depth) (key : UInt16) :
    (t.growTo key).depth - 1 = t.depth - 1 + ((t.growTo key).depth - t.depth) := by
  have hle : t.depth ≤ (t.growTo key).depth := le_max_left _ _
  omega

lemma get?_growTo (h : t.Sound) (key k : UInt16) : (t.growTo key).get? k = t.get? k := by
  have hpos := h.pos
  have hle : t.depth ≤ (t.growTo key).depth := le_max_left _ _
  have hpow : width ^ t.depth ≤ width ^ (t.growTo key).depth := Nat.pow_le_pow_right (by decide) hle
  by_cases hk : k.toNat < width ^ (t.growTo key).depth
  · rw [get?_of_lt (by omega) hk, root_growTo]
    cases hr : t.root with
    | none => exact (h.root_eq_none_iff.1 hr k).symm
    | some level =>
      have hd : t.depth - 1 + ((t.growTo key).depth - t.depth) + 1 = (t.growTo key).depth := by
        omega
      rw [Option.map_some, Option.bind_some, below_growTo hpos, Level.get?_wrap (by rwa [hd]),
        Nat.sub_add_cancel hpos]
      split
      · rename_i hlt
        rw [get?_of_lt hpos hlt, hr]
        rfl
      · rename_i hge
        rw [get?_of_le hpos (Nat.le_of_not_lt hge)]
  · rw [get?_of_le (by omega) (Nat.le_of_not_lt hk),
      get?_of_le hpos (hpow.trans (Nat.le_of_not_lt hk))]

lemma shaped_growTo (h : t.Sound) (key : UInt16) {level : Level α}
    (hr : (t.growTo key).root = some level) : Shaped ((t.growTo key).depth - 1) level := by
  rw [root_growTo] at hr
  obtain ⟨l, hl, rfl⟩ := Option.map_eq_some_iff.1 hr
  rw [below_growTo h.pos]
  exact ((h.shaped l hl).wrap (h.used l hl) _).1

/-! ### Setting -/

/-- The root of a table after a key was set, from the root that reaches down to it. -/
def rootWith (key : UInt16) (a : α) (below : Nat) (root : Option (Level α)) : Level α :=
  (root.map (Level.set key a below)).getD (Level.single key a below)

lemma set_root (t : SparseTable α) (key : UInt16) (a : α) :
    (t.set key a).root =
      some (rootWith key a ((t.growTo key).depth - 1) (t.growTo key).root) := rfl

lemma set_depth (t : SparseTable α) (key : UInt16) (a : α) :
    (t.set key a).depth = (t.growTo key).depth := rfl

lemma set_size (t : SparseTable α) (key : UInt16) (a : α) :
    (t.set key a).size = if (t.get? key).isSome then t.size else t.size + 1 := rfl

lemma shaped_rootWith {root : Option (Level α)} {below : Nat}
    (h : ∀ level, root = some level → Shaped below level) (key : UInt16) (a : α) :
    Shaped below (rootWith key a below root) ∧ (rootWith key a below root).isEmpty = false := by
  cases root with
  | none => exact ⟨Level.shaped_single key a below, Level.isEmpty_single key a below⟩
  | some level =>
    exact ⟨Level.shaped_set (h level rfl) key a, Level.isEmpty_set (h level rfl) key a⟩

lemma get?_rootWith {root : Option (Level α)} {below : Nat}
    (h : ∀ level, root = some level → Shaped below level) (k key : UInt16) (a : α) :
    Level.get? k below (rootWith key a below root) =
      if Level.address k below = Level.address key below then some a
      else root.bind (Level.get? k below) := by
  cases root with
  | none => exact Level.get?_single k key a below
  | some level => exact Level.get?_set (h level rfl) k key a

lemma get?_set (h : t.Sound) (key k : UInt16) (a : α) :
    (t.set key a).get? k = if k = key then some a else t.get? k := by
  have hpos : 1 ≤ (t.growTo key).depth := le_max_of_le_left h.pos
  rw [← get?_growTo h key k]
  by_cases hk : k.toNat < width ^ (t.growTo key).depth
  · rw [get?_of_lt hpos hk, get?_of_lt (by rwa [set_depth]) (by rwa [set_depth]), set_root,
      set_depth, Option.bind_some, get?_rootWith fun _ hr => shaped_growTo h key hr]
    simp only [address_inj hpos hk (lt_growTo key)]
  · have hne : k ≠ key := by
      rintro rfl
      exact hk (lt_growTo k)
    rw [if_neg hne, get?_of_le hpos (Nat.le_of_not_lt hk),
      get?_of_le (by rwa [set_depth]) (by rw [set_depth]; exact Nat.le_of_not_lt hk)]

lemma Sound.set (h : t.Sound) (key : UInt16) (a : α) : (t.set key a).Sound where
  pos := le_max_of_le_left h.pos
  shaped level hr := by
    cases hr
    exact (shaped_rootWith (fun _ hr => shaped_growTo h key hr) key a).1
  used level hr := by
    cases hr
    exact (shaped_rootWith (fun _ hr => shaped_growTo h key hr) key a).2
  fresh hr := nomatch hr
  le_four := max_le h.le_four (digits_le_four key)
  counted := by
    obtain ⟨keys, hcard, hkeys⟩ := h.counted
    refine ⟨insert key keys, ?_, ?_⟩
    · rw [set_size, Finset.card_insert_eq_ite, hcard]
      simp only [hkeys]
    · intro k
      rw [Finset.mem_insert, hkeys, get?_set h]
      by_cases hk : k = key
      · simp [hk]
      · simp [hk]

lemma growTo_of_get? (ht : 1 ≤ t.depth) {key : UInt16} (h : (t.get? key).isSome) :
    t.growTo key = t := by
  have hd : max t.depth (digits key) = t.depth :=
    max_eq_left ((digits_le_iff key ht).2 (lt_of_get?_isSome ht h))
  unfold growTo
  dsimp only
  rw [hd, Nat.sub_self]
  cases t with
  | mk depth root size => cases root <;> rfl

lemma rootWith_rootWith {root : Option (Level α)} {below : Nat}
    (h : ∀ level, root = some level → Shaped below level) (key : UInt16) (a b : α) :
    rootWith key b below (some (rootWith key a below root)) = rootWith key b below root := by
  cases root with
  | none => exact Level.set_single key a b below
  | some level => exact Level.set_set (h level rfl) key a b

lemma set_set (h : t.Sound) (key : UInt16) (a b : α) : (t.set key a).set key b = t.set key b := by
  have hs : ((t.set key a).get? key).isSome := by
    rw [get?_set h, if_pos rfl]
    rfl
  have hg : (t.set key a).growTo key = t.set key a := growTo_of_get? (h.set key a).pos hs
  apply SparseTable.ext
  · rw [set_depth, hg, set_depth, set_depth]
  · rw [set_root, hg, set_root, set_root, set_depth,
      rootWith_rootWith fun _ hr => shaped_growTo h key hr]
  · rw [set_size, if_pos hs, set_size, set_size]

lemma set_of_get? (ht : 1 ≤ t.depth) {key : UInt16} {a : α} (h : t.get? key = some a) :
    t.set key a = t := by
  have hs : (t.get? key).isSome := Option.isSome_iff_exists.2 ⟨a, h⟩
  have hg : t.growTo key = t := growTo_of_get? ht hs
  rw [get?_of_lt ht (lt_of_get?_isSome ht hs)] at h
  obtain ⟨level, hr, hl⟩ := Option.bind_eq_some_iff.1 h
  apply SparseTable.ext
  · rw [set_depth, hg]
  · rw [set_root, hg, hr]
    exact congrArg some (Level.set_get? hl)
  · rw [set_size, if_pos hs]

lemma insertNew_of_some {key : UInt16} {b : α} (h : t.get? key = some b) (a : α) :
    t.insertNew key a = (b, t) := by
  unfold insertNew
  rw [h]

lemma insertNew_of_none {key : UInt16} (h : t.get? key = none) (a : α) :
    t.insertNew key a = (a, t.set key a) := by
  unfold insertNew
  rw [h]

lemma modify_of_some {key : UInt16} {a : α} (h : t.get? key = some a) (f : α → α) :
    t.modify key f = (some (f a), t.set key (f a)) := by
  unfold modify
  rw [h]

lemma modify_of_none {key : UInt16} (h : t.get? key = none) (f : α → α) :
    t.modify key f = (none, t) := by
  unfold modify
  rw [h]

/-- The root of a table after a key was erased. -/
def rootWithout (t : SparseTable α) (key : UInt16) : Option (Level α) :=
  t.root.bind fun level => (level.erase key (t.depth - 1)).nonempty?

lemma erase_of_none {key : UInt16} (h : t.get? key = none) : t.erase key = (none, t) := by
  unfold erase
  rw [h]

lemma erase_of_some {key : UInt16} {a : α} (h : t.get? key = some a) :
    t.erase key =
      (some a, ⟨if (t.rootWithout key).isSome then t.depth else 1, t.rootWithout key, t.size - 1⟩) := by
  unfold erase rootWithout
  rw [h]
  dsimp only
  cases t.root.bind fun level => (level.erase key (t.depth - 1)).nonempty? <;> rfl

/-- Erasing leaves the depth as it is, unless it leaves nothing. -/
lemma depth_erase_of_root {key : UInt16} (h : (t.erase key).2.root ≠ none) :
    (t.erase key).2.depth = t.depth := by
  cases hkey : t.get? key with
  | none => rw [erase_of_none hkey]
  | some a =>
    rw [erase_of_some hkey] at h ⊢
    exact if_pos (Option.isSome_iff_ne_none.2 h)

lemma bind_rootWithout (h : t.Sound) (k key : UInt16) :
    (t.rootWithout key).bind (Level.get? k (t.depth - 1)) =
      if Level.address k (t.depth - 1) = Level.address key (t.depth - 1) then none
      else t.root.bind (Level.get? k (t.depth - 1)) := by
  unfold rootWithout
  cases hr : t.root with
  | none =>
    split <;> rfl
  | some level =>
    rw [Option.bind_some, Option.bind_some, Level.bind_nonempty?,
      Level.get?_erase (h.shaped level hr)]

lemma erase_fst (t : SparseTable α) (key : UInt16) : (t.erase key).1 = t.get? key := by
  cases h : t.get? key with
  | none => rw [erase_of_none h]
  | some a => rw [erase_of_some h]

lemma get?_erase (h : t.Sound) (key k : UInt16) :
    (t.erase key).2.get? k = if k = key then none else t.get? k := by
  cases hkey : t.get? key with
  | none =>
    rw [erase_of_none hkey]
    split
    · rename_i hk
      rw [hk, hkey]
    · rfl
  | some a =>
    have hlt := lt_of_get?_isSome h.pos (Option.isSome_iff_exists.2 ⟨a, hkey⟩)
    -- the depth may fall back to one, but only with a root that is gone
    have hb (hk : k.toNat < width ^ t.depth) :
        (t.rootWithout key).bind (Level.get? k (t.depth - 1)) =
          if k = key then none else t.get? k := by
      rw [bind_rootWithout h, get?_of_lt h.pos hk]
      simp only [address_inj h.pos hk hlt]
    have hge (hk : ¬k.toNat < width ^ t.depth) : (if k = key then none else t.get? k) = none := by
      rw [get?_of_le h.pos (Nat.le_of_not_lt hk), ite_self]
    rw [erase_of_some hkey]
    cases hr : t.rootWithout key with
    | none =>
      rw [hr] at hb
      refine (get?_rootless k _ _).trans ?_
      by_cases hk : k.toNat < width ^ t.depth
      · exact hb hk
      · exact (hge hk).symm
    | some level =>
      rw [hr] at hb
      by_cases hk : k.toNat < width ^ t.depth
      · exact (get?_of_lt (t := ⟨t.depth, some level, t.size - 1⟩) h.pos hk).trans (hb hk)
      · rw [hge hk]
        exact get?_of_le (t := ⟨t.depth, some level, t.size - 1⟩) h.pos (Nat.le_of_not_lt hk)

lemma Sound.erase (h : t.Sound) (key : UInt16) : (t.erase key).2.Sound := by
  cases hkey : t.get? key with
  | none =>
    rw [erase_of_none hkey]
    exact h
  | some a =>
    have hcounted : ∃ keys : Finset UInt16,
        keys.card = t.size - 1 ∧ ∀ k, k ∈ keys ↔ ((t.erase key).2.get? k).isSome := by
      obtain ⟨keys, hcard, hkeys⟩ := h.counted
      refine ⟨keys.erase key, ?_, ?_⟩
      · rw [Finset.card_erase_of_mem ((hkeys key).2 (by rw [hkey]; rfl)), hcard]
      · intro k
        rw [Finset.mem_erase, hkeys, get?_erase h]
        by_cases hk : k = key
        · simp [hk]
        · simp [hk]
    rw [erase_of_some hkey] at hcounted ⊢
    dsimp only at hcounted ⊢
    cases hr : t.rootWithout key with
    | none =>
      rw [hr] at hcounted
      exact ⟨le_rfl, nofun, nofun, fun _ => rfl, Nat.le_add_left 1 3, hcounted⟩
    | some level =>
      rw [hr] at hcounted
      obtain ⟨l, hl, hn⟩ := Option.bind_eq_some_iff.1 hr
      obtain ⟨rfl, hu⟩ := Level.nonempty?_eq_some hn
      refine ⟨h.pos, ?_, ?_, nofun, h.le_four, hcounted⟩
      · rintro _ ⟨⟩
        exact Level.shaped_erase (h.shaped l hl) key
      · rintro _ ⟨⟩
        exact hu

end SparseTable

end TransactionEngine
