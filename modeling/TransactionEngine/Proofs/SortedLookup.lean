import Mathlib.Data.List.Basic
import TransactionEngine.Command.Lookup

/-!
# Looking up names in a sorted table

Halving the part of the table in which a name can be finds what a look at every entry finds. So a
name is known exactly if a command has it.
-/

namespace TransactionEngine

namespace SortedTable

variable {α : Type} {name : α → String} {table : List α} {target : String}

/-- The names in a table increase. -/
def Increasing (name : α → String) (table : List α) : Prop :=
  table.Pairwise fun a b => compare (name a) (name b) = .lt

instance (name : α → String) (table : List α) : Decidable (Increasing name table) :=
  inferInstanceAs (Decidable (table.Pairwise _))

lemma Increasing.compare_of_lt (h : Increasing name table) {i j : Nat} {a b : α} (hij : i < j)
    (hi : table[i]? = some a) (hj : table[j]? = some b) : compare (name a) (name b) = .lt := by
  obtain ⟨hil, rfl⟩ := List.getElem?_eq_some_iff.1 hi
  obtain ⟨hjl, rfl⟩ := List.getElem?_eq_some_iff.1 hj
  exact List.pairwise_iff_getElem.1 h i j hil hjl hij

lemma Increasing.index_eq (h : Increasing name table) {i j : Nat} {a b : α}
    (hi : table[i]? = some a) (hj : table[j]? = some b) (hab : name a = name b) : i = j := by
  rcases Nat.lt_trichotomy i j with hlt | heq | hlt
  · have hc := h.compare_of_lt hlt hi hj
    rw [hab, Std.ReflOrd.compare_self] at hc
    cases hc
  · exact heq
  · have hc := h.compare_of_lt hlt hj hi
    rw [hab, Std.ReflOrd.compare_self] at hc
    cases hc

lemma Increasing.lt_of_compare (h : Increasing name table) {i j : Nat} {a b : α}
    (hi : table[i]? = some a) (hj : table[j]? = some b)
    (hab : compare (name a) (name b) = .lt) : i < j := by
  by_contra hle
  rcases Nat.lt_or_eq_of_le (Nat.le_of_not_lt hle) with hlt | rfl
  · have hba := h.compare_of_lt hlt hj hi
    rw [Std.OrientedOrd.eq_swap, hab] at hba
    cases hba
  · obtain rfl := Option.some.inj (hi.symm.trans hj)
    rw [Std.ReflOrd.compare_self] at hab
    cases hab

lemma exists_of_scan {low high : Nat} {e : α}
    (h : ((table.drop low).take (high - low)).find? (fun entry => name entry = target) = some e) :
    ∃ i, low ≤ i ∧ i < high ∧ table[i]? = some e ∧ name e = target := by
  have hname := List.find?_some h
  obtain ⟨k, hk⟩ := List.mem_iff_getElem?.1 (List.mem_of_find?_eq_some h)
  rw [List.getElem?_take] at hk
  split at hk
  · rw [List.getElem?_drop] at hk
    exact ⟨low + k, Nat.le_add_right .., by omega, hk, of_decide_eq_true hname⟩
  · cases hk

lemma scan_eq_some_iff (h : Increasing name table) {low high : Nat} {e : α} :
    ((table.drop low).take (high - low)).find? (fun entry => name entry = target) = some e ↔
      ∃ i, low ≤ i ∧ i < high ∧ table[i]? = some e ∧ name e = target := by
  refine ⟨exists_of_scan, ?_⟩
  rintro ⟨i, hlow, hhigh, hi, hname⟩
  cases hf : ((table.drop low).take (high - low)).find? (fun entry => name entry = target) with
  | none =>
    have hmem : e ∈ (table.drop low).take (high - low) := by
      refine List.mem_iff_getElem?.2 ⟨i - low, ?_⟩
      rw [List.getElem?_take, if_pos (by omega), List.getElem?_drop, Nat.add_sub_cancel' hlow, hi]
    exact absurd (decide_eq_true hname) (List.find?_eq_none.1 hf e hmem)
  | some d =>
    obtain ⟨j, -, -, hj, hd⟩ := exists_of_scan hf
    obtain rfl := h.index_eq hj hi (hd.trans hname.symm)
    exact hj.symm.trans hi

/-- The search finds the one entry with a name among the entries from `low` up to `high`. -/
lemma search_eq_some_iff (h : Increasing name table) {low high : Nat} (hhigh : high ≤ table.length)
    {e : α} :
    search name table target low high = some e ↔
      ∃ i, low ≤ i ∧ i < high ∧ table[i]? = some e ∧ name e = target := by
  fun_induction search name table target low high with
  | case1 low high hwide middle hnone =>
    have hle := List.getElem?_eq_none_iff.1 hnone
    simp only [scanWidth] at hwide
    omega
  | case2 low high hwide middle entry hmiddle heq =>
    have hname : name entry = target := Std.LawfulEqOrd.compare_eq_iff_eq.1 heq
    simp only [scanWidth] at hwide
    constructor
    · rintro ⟨⟩
      exact ⟨middle, by omega, by omega, hmiddle, hname⟩
    · rintro ⟨i, -, -, hi, he⟩
      obtain rfl := h.index_eq hi hmiddle (he.trans hname.symm)
      exact hmiddle.symm.trans hi
  | case3 low high hwide middle entry hmiddle hlt ih =>
    rw [ih hhigh]
    simp only [scanWidth] at hwide
    refine exists_congr fun i => ⟨fun ⟨hlow, hrest⟩ => ⟨by omega, hrest⟩, ?_⟩
    rintro ⟨-, hi, hentry, hname⟩
    rw [← hname] at hlt
    exact ⟨h.lt_of_compare hmiddle hentry hlt, hi, hentry, hname⟩
  | case4 low high hwide middle entry hmiddle hgt ih =>
    simp only [scanWidth] at hwide
    rw [ih (by omega)]
    refine exists_congr fun i => ⟨fun ⟨hlow, hi, hrest⟩ => ⟨hlow, by omega, hrest⟩, ?_⟩
    rintro ⟨hlow, -, hentry, hname⟩
    rw [← hname, Std.OrientedOrd.eq_swap, Ordering.swap_eq_gt] at hgt
    exact ⟨hlow, h.lt_of_compare hentry hmiddle hgt, hentry, hname⟩
  | case5 low high hnarrow => exact scan_eq_some_iff h

/-- A name is found in an increasing table exactly if an entry has it. -/
theorem find?_eq_some_iff (h : Increasing name table) {e : α} :
    find? name table target = some e ↔ e ∈ table ∧ name e = target := by
  rw [find?, search_eq_some_iff h (Nat.le_refl _), List.mem_iff_getElem?]
  constructor
  · rintro ⟨i, -, -, hi, hname⟩
    exact ⟨⟨i, hi⟩, hname⟩
  · rintro ⟨⟨i, hi⟩, hname⟩
    exact ⟨i, Nat.zero_le i, (List.getElem?_eq_some_iff.1 hi).1, hi, hname⟩

end SortedTable

namespace Command

lemma increasing_all : SortedTable.Increasing Command.name all := by
  decide

lemma mem_all (c : Command) : c ∈ all := by
  cases c with
  | regular c => cases c <;> decide
  | special c => cases c <;> decide

/-- A name is known exactly if a command has it. -/
theorem find_eq_ok_iff {name : String} {c : Command} : find name = .ok c ↔ c.name = name := by
  have hfind : find? name = some c ↔ c.name = name :=
    (SortedTable.find?_eq_some_iff increasing_all).trans (and_iff_right (mem_all c))
  rw [← hfind, find]
  cases find? name <;> simp

end Command

end TransactionEngine
