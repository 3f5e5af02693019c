import TransactionEngine.Value.Basic

/-! # The search among the members of a set

The members of a set on a heap are searched from level to level. A search at a level meets the
members of that level alone, in order and up to the first that is not smaller, and goes on one
level below, between that one and the one before it. At most eleven members of a level stand
together without one of a higher level between them; of twelve one in the middle goes up.

In a set whose members are in order the place found is the one before the first larger member. It
can be another one when a member is a set that was changed after it was put in.
-/

namespace TransactionEngine

/-- A member of a set with the level at which a search meets it. -/
structure Member where
  value : Value
  level : Nat

namespace Member

/-- A part of the members of a set between those before it, nearest first, and those after it. -/
structure Gap where
  before : List Member
  inside : List Member
  after : List Member

/-- Looks through a list for the first member of a level that is not smaller than a value, which
`order` compares with members. The gap ends there and begins after the last smaller member of the
level; there is none if an equal member is met. What was passed, before the gap and inside of it,
is nearest first. -/
def narrow (order : Value → Ordering) (level : Nat) (before inside : List Member) :
    List Member → Option Gap
  | [] => some ⟨before, inside.reverse, []⟩
  | m :: ms =>
    if m.level = level then
      match order m.value with
      | .lt => some ⟨before, inside.reverse, m :: ms⟩
      | .eq => none
      | .gt => narrow order level (m :: (inside ++ before)) [] ms
    else narrow order level before (m :: inside) ms

/-- Narrows a gap at every level below a height. -/
def locate (order : Value → Ordering) : Nat → Gap → Option Gap
  | 0, gap => some gap
  | level + 1, gap => do
    let inner ← narrow order level gap.before [] gap.inside
    locate order level { inner with after := inner.after ++ gap.after }

/-- The places of the members of one level that stand together with the one at a place. -/
def group (members : List Member) (place : Nat) : List Nat :=
  match members[place]? with
  | none => []
  | some m =>
    let start := place - ((members.take place).reverse.takeWhile (·.level ≤ m.level)).length
    let length := ((members.drop start).takeWhile (·.level ≤ m.level)).length
    (List.range' start length).filter fun i => members[i]?.map level = some m.level

/-- The most members of a level that stand together. -/
def greatestGroup : Nat :=
  11

/-- Of twelve members that stand together, the one that goes up when the newest is at an index:
one of the middle two, and not the newest itself. -/
def middle (newest : Nat) : Nat :=
  if newest < 5 || newest = 6 then 5 else 6

/-- Lets members go up, beginning where a new one is, until no more than eleven stand together;
at most `n` of them go up. -/
def settle : Nat → Nat → List Member → List Member
  | 0, _, members => members
  | n + 1, place, members =>
    let group := group members place
    if group.length ≤ greatestGroup then members
    else match group[middle (group.countP (· < place))]? with
      | none => members
      | some i => settle n i (members.modify i fun m => { m with level := m.level + 1 })

/-- The number of levels that a search goes down. -/
def height (members : List Member) : Nat :=
  members.foldr (fun m h => max (m.level + 1) h) 0

/-- Puts a value in its place among members; `none` when the search meets an equal one. -/
def insert (order : Value → Value → Ordering) (v : Value) (members : List Member) :
    Option (List Member) := do
  let gap ← locate (order v) (height members) ⟨[], members, []⟩
  let before := gap.before.reverse ++ gap.inside
  pure (settle members.length before.length (before ++ ⟨v, 0⟩ :: gap.after))

/-- Narrowing keeps all members, in their order. -/
theorem narrow_append {order : Value → Ordering} {level : Nat}
    {before inside rest : List Member} {gap : Gap}
    (h : narrow order level before inside rest = some gap) :
    gap.before.reverse ++ gap.inside ++ gap.after =
      before.reverse ++ inside.reverse ++ rest := by
  induction rest generalizing before inside with
  | nil => cases h; rfl
  | cons m ms ih =>
    simp only [narrow] at h
    split at h
    · split at h
      · cases h; rfl
      · cases h
      · simpa using ih h
    · simpa using ih h

/-- Narrowing at several levels keeps all members, in their order. -/
theorem locate_append {order : Value → Ordering} {height : Nat} {gap inner : Gap}
    (h : locate order height gap = some inner) :
    inner.before.reverse ++ inner.inside ++ inner.after =
      gap.before.reverse ++ gap.inside ++ gap.after := by
  induction height generalizing gap with
  | zero => cases h; rfl
  | succ level ih =>
    simp only [locate, Option.bind_eq_bind, Option.bind_eq_some_iff] at h
    obtain ⟨g, hg, h⟩ := h
    have := narrow_append hg
    simp only [List.reverse_nil, List.append_nil] at this
    rw [ih h, ← List.append_assoc, this]

/-- A member that goes up changes no value and no order. -/
theorem map_value_settle (n place : Nat) (members : List Member) :
    (settle n place members).map value = members.map value := by
  induction n generalizing place members with
  | zero => rfl
  | succ n ih =>
    simp only [settle]
    split
    · rfl
    · split
      · rfl
      · rw [ih]
        refine List.ext_getElem? fun i => ?_
        simp only [List.getElem?_map, List.getElem?_modify]
        split <;> cases members[i]? <;> rfl

/-- A value that is put in stands between two parts of the members as they were. -/
theorem exists_append_of_insert {order : Value → Value → Ordering} {v : Value}
    {members now : List Member} (h : insert order v members = some now) :
    ∃ smaller larger, members.map value = smaller ++ larger ∧
      now.map value = smaller ++ v :: larger := by
  simp only [insert, Option.bind_eq_bind, Option.bind_eq_some_iff, Option.pure_def,
    Option.some.injEq] at h
  obtain ⟨gap, hgap, rfl⟩ := h
  refine ⟨(gap.before.reverse ++ gap.inside).map value, gap.after.map value, ?_, ?_⟩
  · rw [← List.map_append, locate_append hgap]
    simp
  · simp [map_value_settle]

end Member

end TransactionEngine
