/-! # Entries by name

A finite map from names, as a list of entries in the order in which the names were first set.
-/

namespace TransactionEngine

abbrev Dictionary (α : Type) := List (String × α)

namespace Dictionary

variable {α : Type}

def get? (d : Dictionary α) (name : String) : Option α :=
  d.lookup name

/-- Sets the entry of a name; one that is there is replaced. -/
def set : Dictionary α → String → α → Dictionary α
  | [], name, a => [(name, a)]
  | (n, b) :: d, name, a => if n = name then (n, a) :: d else (n, b) :: set d name a

def erase (d : Dictionary α) (name : String) : Dictionary α :=
  d.filter fun (n, _) => n ≠ name

@[simp] theorem get?_nil (n : String) : get? ([] : Dictionary α) n = none := rfl

theorem get?_cons (d : Dictionary α) (name n : String) (a : α) :
    get? ((name, a) :: d) n = if n = name then some a else d.get? n := by
  unfold get?
  rw [List.lookup_cons]
  by_cases h : n = name
  · rw [if_pos h, beq_iff_eq.2 h]
  · rw [if_neg h, beq_eq_false_iff_ne.2 h]

@[simp] theorem get?_set (d : Dictionary α) (name n : String) (a : α) :
    (d.set name a).get? n = if n = name then some a else d.get? n := by
  induction d with
  | nil => rw [set, get?_cons]
  | cons entry d ih =>
    obtain ⟨m, b⟩ := entry
    unfold set
    by_cases hm : m = name
    · rw [if_pos hm, get?_cons, get?_cons, hm]
      by_cases h : n = name
      · rw [if_pos h, if_pos h]
      · rw [if_neg h, if_neg h, if_neg h]
    · rw [if_neg hm, get?_cons, get?_cons, ih]
      by_cases h : n = m
      · rw [if_pos h, if_pos h, if_neg (h ▸ hm)]
      · rw [if_neg h, if_neg h]

@[simp] theorem get?_erase (d : Dictionary α) (name n : String) :
    (d.erase name).get? n = if n = name then none else d.get? n := by
  induction d with
  | nil => simp [erase]
  | cons entry d ih =>
    obtain ⟨m, b⟩ := entry
    unfold erase at ih ⊢
    by_cases hm : m = name
    · rw [List.filter_cons_of_neg (by simp [hm]), ih, get?_cons, hm]
      by_cases h : n = name
      · rw [if_pos h, if_pos h]
      · rw [if_neg h, if_neg h, if_neg h]
    · rw [List.filter_cons_of_pos (by simp [hm]), get?_cons, get?_cons, ih]
      by_cases h : n = m
      · rw [if_pos h, if_pos h, if_neg (h ▸ hm)]
      · rw [if_neg h, if_neg h]

end Dictionary

end TransactionEngine
