import TransactionEngine.Value.Identity

/-! # The order of values

Values of different kinds are in the order of their kinds, values of one kind in the order of what
they hold. References to no object come before all objects; objects are ordered by the name of
their type, connections by number, sets by their members, and others by where they are. What is
identical is equal, and is not looked into.
-/

namespace TransactionEngine

mutual

def Value.compare : Value → Value → Ordering
  | .bool a, .bool b => Ord.compare a b
  | .int a, .int b => Ord.compare a b
  | .string a, .string b => Ord.compare a b
  | .null, .object _ => .lt
  | .object _, .null => .gt
  | v@(.object a), w@(.object b) => if v.identical w then .eq else a.compare b
  | v@(.set a), w@(.set b) => if v.identical w then .eq else Value.compareMembers a b
  | .named a v, .named b w => (Ord.compare a b).then (v.compare w)
  | a, b => Ord.compare a.kind.rank b.kind.rank

def Object.compare : Object → Object → Ordering
  | .connection _ a, .connection _ b => Ord.compare a b
  | .set _ a, .set _ b => Value.compareMembers a b
  | a, b => (Ord.compare a.typeName b.typeName).then (Ord.compare a.address b.address)

/-- The order of lists of values: the first difference decides, and a list comes before its
extensions. -/
def Value.compareMembers : List Value → List Value → Ordering
  | [], [] => .eq
  | [], _ :: _ => .lt
  | _ :: _, [] => .gt
  | v :: vs, w :: ws => (v.compare w).then (Value.compareMembers vs ws)

end

mutual

/-- A value is equal to itself. -/
theorem Value.compare_self : ∀ v : Value, v.compare v = .eq
  | .nil | .null => by simp [Value.compare]
  | .bool _ | .int _ | .string _ => by simp [Value.compare]
  | .object _ | .set _ => by simp [Value.compare, Value.identical]
  | .named _ v => by simp [Value.compare, Value.compare_self v]

/-- An object is equal to itself. -/
theorem Object.compare_self : ∀ o : Object, o.compare o = .eq
  | .connection .. => by simp [Object.compare]
  | .set _ members => by simp [Object.compare, Value.compareMembers_self members]
  | .plugin .. => by simp [Object.compare]

/-- A list of values is equal to itself. -/
theorem Value.compareMembers_self : ∀ vs : List Value, Value.compareMembers vs vs = .eq
  | [] => by simp [Value.compareMembers]
  | v :: vs => by simp [Value.compareMembers, Value.compare_self v, Value.compareMembers_self vs]

end

/-- References are in the order of the objects. -/
theorem Value.compare_object (a b : Object) :
    (Value.object a).compare (.object b) = a.compare b := by
  rw [Value.compare]
  split
  · next h =>
    cases Value.identical_iff.1 h
    exact (Object.compare_self a).symm
  · rfl

/-- Sets are in the order of their members. -/
theorem Value.compare_set (a b : List Value) :
    (Value.set a).compare (.set b) = Value.compareMembers a b := by
  rw [Value.compare]
  split
  · next h =>
    cases Value.identical_iff.1 h
    exact (Value.compareMembers_self a).symm
  · rfl

instance : Ord Value := ⟨Value.compare⟩

instance : BEq Value := ⟨fun v w => v.compare w == .eq⟩

/-- The comparison that an object's own type offers. -/
def Object.compareOwn : Object → Object → Except Error Ordering
  | .connection _ a, .connection _ b => .ok (Ord.compare a b)
  | .connection .., other => .error (.unsupported other.typeName .compareConnection)
  | .set _ a, .set _ b => .ok (Value.compareMembers a b)
  | .set .., other => .error (.unsupported other.typeName .compareSet)
  | .plugin _ type, _ => .error (.unsupported type .compare)

namespace Value

/-- Puts a value before the first one that is larger in an order; `none` when an equal one is met
first. -/
def insertMemberBy (order : Value → Value → Ordering) (v : Value) :
    List Value → Option (List Value)
  | [] => some [v]
  | w :: ws =>
    match order v w with
    | .lt => some (v :: w :: ws)
    | .eq => none
    | .gt => (insertMemberBy order v ws).map (w :: ·)

/-- The members of a list of values in an order, the first of equal ones. -/
def membersBy (order : Value → Value → Ordering) (items : List Value) : List Value :=
  items.foldl (fun members v => (insertMemberBy order v members).getD members) []

/-- The members of a list of values: in order, each once. -/
def membersOf (items : List Value) : List Value :=
  membersBy Value.compare items

def setOf (items : List Value) : Value :=
  .set (membersOf items)

end Value

end TransactionEngine
