import TransactionEngine.Program

/-! # Commands by name

The table of commands is in the order of their names, so a name is found by halving the part of
the table it can be in. Short parts are scanned.
-/

namespace TransactionEngine

namespace SortedTable

/-- Parts of a table no longer than this are scanned. -/
def scanWidth : Nat :=
  4

/-- The entry with a name among the entries from `low` up to `high`, in a table ordered by
name. -/
def search {α : Type} (name : α → String) (table : List α) (target : String) (low high : Nat) :
    Option α :=
  if _h : scanWidth < high - low then
    let middle := low + (high - low) / 2
    match table[middle]? with
    | none => none
    | some entry =>
      match compare (name entry) target with
      | .eq => some entry
      | .lt => search name table target (middle + 1) high
      | .gt => search name table target low middle
  else ((table.drop low).take (high - low)).find? fun entry => name entry = target
termination_by high - low
decreasing_by all_goals simp only [scanWidth] at _h; omega

/-- The entry with a name in a table ordered by name. -/
def find? {α : Type} (name : α → String) (table : List α) (target : String) : Option α :=
  search name table target 0 table.length

end SortedTable

namespace Command

def find? (name : String) : Option Command :=
  SortedTable.find? Command.name all name

/-- The command with a name, or that there is none. -/
def find (name : String) : Except Error Command :=
  match find? name with
  | some c => .ok c
  | none => .error (.unknownCommand name)

end Command

end TransactionEngine
