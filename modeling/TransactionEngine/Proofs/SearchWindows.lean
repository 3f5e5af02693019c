import Mathlib.Data.List.Chain
import TransactionEngine.Proofs.SortedLookup

/-!
# The windows of a search

A search for a name looks at windows of the table, each inside of the one before it and at most half
as wide. They never leave the table, whether it is in order or not; where it is, what the search
finds is what a scan of the whole table finds.
-/

namespace TransactionEngine

/-- The entries of a table from an index up to another one. -/
structure Window where
  low : Nat
  high : Nat

namespace Window

def width (w : Window) : Nat :=
  w.high - w.low

def middle (w : Window) : Nat :=
  w.low + w.width / 2

/-- All entries of a table of this length. -/
def whole (length : Nat) : Window :=
  ⟨0, length⟩

/-- The window ends where it begins or later, and no later than the table. -/
structure Within (w : Window) (length : Nat) : Prop where
  ordered : w.low ≤ w.high
  bounded : w.high ≤ length

/-- The window lies inside of another one and is narrower, at most half as wide. -/
structure Narrower (v w : Window) : Prop where
  low_le : w.low ≤ v.low
  high_le : v.high ≤ w.high
  width_lt : v.width < w.width
  halved : 2 * v.width ≤ w.width

end Window

namespace SortedTable

variable {α : Type} (name : α → String) (table : List α) (target : String)

/-- The window that the search goes on with, if it does not end here. -/
def narrowed? (w : Window) : Option Window :=
  if scanWidth < w.width then
    table[w.middle]?.bind fun entry =>
      match compare (name entry) target with
      | .eq => none
      | .lt => some ⟨w.middle + 1, w.high⟩
      | .gt => some ⟨w.low, w.middle⟩
  else none

/-- What the search finds where it ends: the entry in the middle of a wide window, or what a scan of
a narrow one finds. -/
def foundAt (w : Window) : Option α :=
  if scanWidth < w.width then table[w.middle]?
  else ((table.drop w.low).take w.width).find? fun entry => name entry = target

variable {name table target} {w v : Window}

lemma exists_of_narrowed? (h : narrowed? name table target w = some v) :
    scanWidth < w.width ∧ ∃ entry, table[w.middle]? = some entry ∧
      (compare (name entry) target = .lt ∧ v = ⟨w.middle + 1, w.high⟩ ∨
        compare (name entry) target = .gt ∧ v = ⟨w.low, w.middle⟩) := by
  unfold narrowed? at h
  split at h
  · next hwide =>
    obtain ⟨entry, hentry, h⟩ := Option.bind_eq_some_iff.1 h
    refine ⟨hwide, entry, hentry, ?_⟩
    cases hc : compare (name entry) target with
    | eq => rw [hc] at h; cases h
    | lt => rw [hc] at h; cases h; exact .inl ⟨rfl, rfl⟩
    | gt => rw [hc] at h; cases h; exact .inr ⟨rfl, rfl⟩
  · cases h

lemma narrower_of_narrowed? (h : narrowed? name table target w = some v) : v.Narrower w := by
  obtain ⟨hwide, entry, -, ⟨-, rfl⟩ | ⟨-, rfl⟩⟩ := exists_of_narrowed? h
  all_goals
    simp only [scanWidth, Window.width] at hwide
    constructor <;> simp only [Window.width, Window.middle] <;> omega

variable (name table target)

/-- The windows that the search looks at, from a first one on. -/
def windows (w : Window) : List Window :=
  match _h : narrowed? name table target w with
  | none => [w]
  | some v => w :: windows v
termination_by w.width
decreasing_by exact (narrower_of_narrowed? _h).width_lt

variable {name table target}

lemma search_eq (w : Window) :
    search name table target w.low w.high =
      match narrowed? name table target w with
      | some v => search name table target v.low v.high
      | none => foundAt name table target w := by
  fun_cases search name table target w.low w.high with
  | case1 hwide middle hnone =>
    have hmiddle : table[w.middle]? = none := hnone
    have hwidth : scanWidth < w.width := hwide
    rw [narrowed?, if_pos hwidth, foundAt, if_pos hwidth, hmiddle, Option.bind_none]
  | case2 hwide middle entry hentry heq =>
    have hmiddle : table[w.middle]? = some entry := hentry
    have hwidth : scanWidth < w.width := hwide
    rw [narrowed?, if_pos hwidth, foundAt, if_pos hwidth, hmiddle, Option.bind_some, heq]
  | case3 hwide middle entry hentry hlt =>
    have hmiddle : table[w.middle]? = some entry := hentry
    have hwidth : scanWidth < w.width := hwide
    rw [narrowed?, if_pos hwidth, hmiddle, Option.bind_some, hlt]
    rfl
  | case4 hwide middle entry hentry hgt =>
    have hmiddle : table[w.middle]? = some entry := hentry
    have hwidth : scanWidth < w.width := hwide
    rw [narrowed?, if_pos hwidth, hmiddle, Option.bind_some, hgt]
    rfl
  | case5 hnarrow =>
    have hwidth : ¬scanWidth < w.width := hnarrow
    rw [narrowed?, if_neg hwidth, foundAt, if_neg hwidth]
    rfl

lemma within_of_narrowed? {length : Nat} (hw : w.Within length)
    (h : narrowed? name table target w = some v) : v.Within length := by
  obtain ⟨hwide, entry, -, hv⟩ := exists_of_narrowed? h
  obtain ⟨hordered, hbounded⟩ := hw
  simp only [scanWidth, Window.width] at hwide
  obtain ⟨-, rfl⟩ | ⟨-, rfl⟩ := hv
  all_goals
    constructor <;> simp only [Window.width, Window.middle] <;> omega

lemma windows_of_none (h : narrowed? name table target w = none) :
    windows name table target w = [w] := by
  rw [windows]
  split
  · rfl
  · next hv => cases h.symm.trans hv

lemma windows_of_some (h : narrowed? name table target w = some v) :
    windows name table target w = w :: windows name table target v := by
  rw [windows]
  split
  · next hn => cases h.symm.trans hn
  · next hv =>
    cases h.symm.trans hv
    rfl

lemma head?_windows (w : Window) : (windows name table target w).head? = some w := by
  cases h : narrowed? name table target w with
  | none => rw [windows_of_none h, List.head?_cons]
  | some v => rw [windows_of_some h, List.head?_cons]

lemma within_windows {length : Nat} (hw : w.Within length) :
    ∀ v ∈ windows name table target w, v.Within length := by
  fun_induction windows name table target w with
  | case1 w hn =>
    intro v hv
    rw [List.mem_singleton.1 hv]
    exact hw
  | case2 w u hu ih => exact List.forall_mem_cons.2 ⟨hw, ih (within_of_narrowed? hw hu)⟩

lemma isChain_windows (w : Window) :
    (windows name table target w).IsChain fun w v => narrowed? name table target w = some v := by
  fun_induction windows name table target w with
  | case1 w hn => exact .singleton w
  | case2 w v hv ih =>
    refine ih.cons fun u hu => ?_
    rw [head?_windows, Option.mem_some_iff] at hu
    exact hu ▸ hv

/-- What is found is what the search of any of the windows finds. -/
lemma search_eq_of_mem (w : Window) :
    ∀ v ∈ windows name table target w,
      search name table target v.low v.high = search name table target w.low w.high := by
  fun_induction windows name table target w with
  | case1 w hn =>
    intro v hv
    rw [List.mem_singleton.1 hv]
  | case2 w u hu ih =>
    have hsearch : search name table target w.low w.high = search name table target u.low u.high := by
      rw [search_eq w, hu]
    exact List.forall_mem_cons.2 ⟨rfl, fun v hv => (ih v hv).trans hsearch.symm⟩

lemma exists_last (w : Window) :
    ∃ v, (windows name table target w).getLast? = some v ∧
      search name table target w.low w.high = foundAt name table target v := by
  fun_induction windows name table target w with
  | case1 w hn =>
    refine ⟨w, rfl, ?_⟩
    rw [search_eq, hn]
  | case2 w u hu ih =>
    obtain ⟨v, hlast, hfound⟩ := ih
    refine ⟨v, ?_, ?_⟩
    · rw [List.getLast?_cons, hlast, Option.getD_some]
    · rw [search_eq, hu]
      exact hfound

/-! ### What a search looks at, and what it finds -/

variable (name table target)

/-- How the search of a whole table narrows down the part that it looks at. -/
structure Narrows : Prop where
  starts : (windows name table target (.whole table.length)).head? = some (.whole table.length)
  within : ∀ w ∈ windows name table target (.whole table.length), w.Within table.length
  readable : ∀ w ∈ windows name table target (.whole table.length), scanWidth < w.width →
    w.middle < table.length
  shrinks : (windows name table target (.whole table.length)).IsChain fun w v =>
    narrowed? name table target w = some v ∧ v.Narrower w
  goesOn : ∀ w ∈ windows name table target (.whole table.length),
    find? name table target = search name table target w.low w.high
  ends : ∃ w, (windows name table target (.whole table.length)).getLast? = some w ∧
    find? name table target = foundAt name table target w

/-- What was found is what a scan of the whole table finds: the entry with the name, and nothing
exactly if no entry has it. -/
structure LikeScan (found : Option α) : Prop where
  scanned : found = table.find? fun entry => name entry = target
  found_iff : ∀ entry, found = some entry ↔ entry ∈ table ∧ name entry = target
  missing_iff : found = none ↔ ∀ entry ∈ table, name entry ≠ target

lemma narrows : Narrows name table target := by
  have hwithin : ∀ w ∈ windows name table target (.whole table.length), w.Within table.length :=
    within_windows ⟨Nat.zero_le _, Nat.le_refl _⟩
  refine ⟨head?_windows _, hwithin, fun w hw hwide => ?_, ?_, fun w hw => ?_, exists_last _⟩
  · have hbounded := (hwithin w hw).bounded
    simp only [Window.middle, Window.width, scanWidth] at hwide ⊢
    omega
  · exact (isChain_windows _).imp fun w v hv => ⟨hv, narrower_of_narrowed? hv⟩
  · exact (search_eq_of_mem _ w hw).symm

variable {name table}

lemma Increasing.find?_eq (h : Increasing name table) :
    find? name table target = table.find? fun entry => name entry = target := by
  refine Option.ext fun entry => ?_
  have hscan : ((table.drop 0).take (table.length - 0)).find? (fun e => name e = target) =
      some entry ↔ _ :=
    scan_eq_some_iff h
  rw [List.drop_zero, Nat.sub_zero, List.take_length] at hscan
  exact (search_eq_some_iff h (Nat.le_refl _)).trans hscan.symm

lemma Increasing.likeScan (h : Increasing name table) :
    LikeScan name table target (find? name table target) := by
  refine ⟨h.find?_eq target, fun entry => find?_eq_some_iff h, ?_⟩
  rw [h.find?_eq target, List.find?_eq_none]
  exact forall₂_congr fun entry _ => by rw [decide_eq_true_iff]

end SortedTable

/-- Every name is looked up among the commands as by a scan of them. In a table of any entries, in
order or not, the search stays in the table and narrows down with each step; where the names of the
entries increase, it comes to the result of a scan. -/
theorem SortedTable.lookup_like_scan :
    (∀ target, LikeScan Command.name Command.all target (Command.find? target)) ∧
      ∀ (α : Type) (name : α → String) (table : List α) (target : String),
        Narrows name table target ∧
          (Increasing name table → LikeScan name table target (find? name table target)) :=
  ⟨fun target => Command.increasing_all.likeScan target,
    fun _ name table target => ⟨narrows name table target, fun h => h.likeScan target⟩⟩

/-- Names that others begin with: one is looked up in the middle of a table, and one that no entry
has. -/
theorem SortedTable.lookup_like_scan_prefixes :
    let table := ["jump", "jump_", "jump_i", "jump_if", "jump_ifs", "jumps"]
    LikeScan id table "jump_if" (find? id table "jump_if") ∧
      LikeScan id table "jump_iff" (find? id table "jump_iff") :=
  have hlike (target : String) := SortedTable.lookup_like_scan.2 String id
    ["jump", "jump_", "jump_i", "jump_if", "jump_ifs", "jumps"] target
  ⟨(hlike "jump_if").2 (by decide), (hlike "jump_iff").2 (by decide)⟩

end TransactionEngine
