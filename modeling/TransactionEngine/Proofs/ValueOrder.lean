import Mathlib.Order.Compare
import TransactionEngine.Proofs.ObjectTypes
import TransactionEngine.Value.Order

/-!
# The order of values

A comparison of two values is the other way round if the values are. The order is put together from
ranks of kinds, payloads, names of types, addresses and the members of sets, which are values again.
Written out from left to right, all that a comparison can look at is a list of marks, the key of a
value. Where names tell the types of all objects apart, values are in the order of their keys, and
lists of marks are in lexicographic order; whatever holds of that order holds of the order of such
values.
-/

namespace TransactionEngine

lemma Value.compare_of_kind_ne {v w : Value} (h : v.kind ≠ w.kind) :
    v.compare w = Ord.compare v.kind.rank w.kind.rank := by
  cases v <;> cases w <;> first | rfl | exact absurd rfl h

mutual

/-- A comparison is the other way round if the values are. -/
theorem Value.compare_swap (v w : Value) : (v.compare w).swap = w.compare v :=
  if h : v.kind = w.kind then
    match v, w, h with
    | .nil, .nil, _ | .null, .null, _ | .null, .object _, _ | .object _, .null, _ => rfl
    | .bool _, .bool _, _ | .int _, .int _, _ | .string _, .string _, _ => by
      rw [Value.compare, Value.compare, ← Std.OrientedOrd.eq_swap]
    | .object o, .object p, _ => by
      rw [Value.compare_object, Value.compare_object, Object.compare_swap o p]
    | .set vs, .set ws, _ => by
      rw [Value.compare_set, Value.compare_set, Value.compareMembers_swap vs ws]
    | .named a v, .named b w, _ => by
      rw [Value.compare, Value.compare, Ordering.swap_then, ← Std.OrientedOrd.eq_swap,
        Value.compare_swap v w]
  else by
    rw [Value.compare_of_kind_ne h, Value.compare_of_kind_ne (Ne.symm h), ← Std.OrientedOrd.eq_swap]

theorem Object.compare_swap (o p : Object) : (o.compare p).swap = p.compare o :=
  match o, p with
  | .connection _ a, .connection _ b => by
    rw [Object.compare, Object.compare, ← Std.OrientedOrd.eq_swap]
  | .set _ vs, .set _ ws => Value.compareMembers_swap vs ws
  | .connection .., .set .. | .set .., .connection .. | .plugin .., .plugin ..
  | .connection .., .plugin .. | .plugin .., .connection ..
  | .set .., .plugin .. | .plugin .., .set .. => by
    simp only [Object.compare, Ordering.swap_then, ← Std.OrientedOrd.eq_swap]

theorem Value.compareMembers_swap (vs ws : List Value) :
    (Value.compareMembers vs ws).swap = Value.compareMembers ws vs :=
  match vs, ws with
  | [], [] | [], _ :: _ | _ :: _, [] => rfl
  | v :: vs, w :: ws => by
    rw [Value.compareMembers, Value.compareMembers, Ordering.swap_then, Value.compare_swap v w,
      Value.compareMembers_swap vs ws]

end

instance : Std.OrientedCmp Value.compare where
  eq_swap := (Value.compare_swap _ _).symm

lemma Value.beq_iff_compare (v w : Value) : (v == w) = true ↔ v.compare w = .eq := by
  change (v.compare w == .eq) = true ↔ _
  exact beq_iff_eq

/-! ### Keys -/

/-- A step of a comparison: a rank decides, then a number, then a text. -/
structure Mark where
  rank : Nat
  number : Int := 0
  text : String := ""

namespace Mark

def compare : Mark → Mark → Ordering :=
  compareLex (compareOn rank) (compareLex (compareOn number) (compareOn text))

instance : Ord Mark := ⟨compare⟩

instance : Std.TransOrd Mark :=
  inferInstanceAs (Std.TransCmp
    (compareLex (compareOn rank) (compareLex (compareOn number) (compareOn text))))

/-- What stands behind the members of a set, below every member. -/
def stop : Mark := { rank := 0 }

lemma compare_eq (m n : Mark) :
    Ord.compare m n = (Ord.compare m.rank n.rank).then
      ((Ord.compare m.number n.number).then (Ord.compare m.text n.text)) := rfl

end Mark

/-- What the key of a value of this kind begins with, but for its number and text. -/
def Kind.mark (k : Kind) : Mark := { rank := k.rank + 1 }

mutual

/-- All that a comparison with a value can look at, in the order in which it does. -/
def Value.key : Value → List Mark
  | .nil => [Kind.nil.mark]
  | .bool b => [{ Kind.bool.mark with number := if b then 1 else 0 }]
  | .int n => [{ Kind.int.mark with number := n.toInt }]
  | .string s => [{ Kind.string.mark with text := s }]
  | .null => [Kind.object.mark]
  | .object o => { Kind.object.mark with number := 1 } :: o.key
  | .set members => Kind.set.mark :: (Value.keys members ++ [.stop])
  | .named name v => { Kind.named.mark with text := name } :: v.key

/-- All that a comparison with an object can look at. -/
def Object.key : Object → List Mark
  | .connection _ id => [{ rank := 0, text := "connection" }, { rank := 0, number := id.toNat }]
  | .set _ members => { rank := 0, text := "set" } :: (Value.keys members ++ [.stop])
  | .plugin address type => [{ rank := 0, text := type }, { rank := 0, number := address }]

/-- The keys of values, one behind the other. -/
def Value.keys : List Value → List Mark
  | [] => []
  | v :: vs => v.key ++ Value.keys vs

end

lemma compare_toInt (a b : Int64) : compare a.toInt b.toInt = compare a b := by
  simp [compare, compareOfLessAndEq, Int64.lt_iff_toInt_lt, ← Int64.toInt_inj]

lemma compare_natCast (a b : Nat) : compare (a : Int) b = compare a b := by
  simp only [compare, compareOfLessAndEq, Int.ofNat_lt, Int.ofNat_inj]

lemma compare_toNat (a b : UInt64) : compare (a.toNat : Int) b.toNat = compare a b := by
  rw [compare_natCast]
  simp [compare, compareOfLessAndEq, UInt64.lt_iff_toNat_lt, ← UInt64.toNat_inj]

lemma compare_succ (a b : Nat) : compare (a + 1) (b + 1) = compare a b := by
  simp [compare, compareOfLessAndEq]

/-- What comes behind a difference does not count. -/
lemma then_of_ne {o a b : Ordering} (h : o ≠ .eq) : o.then a = o.then b := by
  cases o with
  | eq => exact absurd rfl h
  | lt => rfl
  | gt => rfl

namespace Value

variable {v w : Value}

lemma key_eq (v : Value) :
    ∃ number text marks, v.key = ⟨v.kind.rank + 1, number, text⟩ :: marks := by
  cases v <;> exact ⟨_, _, _, rfl⟩

lemma compare_key_of_kind_ne (h : v.kind ≠ w.kind) (ms ns : List Mark) :
    Ord.compare (v.key ++ ms) (w.key ++ ns) = (v.compare w).then (Ord.compare ms ns) := by
  obtain ⟨i, s, vs, hv⟩ := v.key_eq
  obtain ⟨j, t, ws, hw⟩ := w.key_eq
  have hrank : Ord.compare v.kind.rank w.kind.rank ≠ .eq := by
    rw [ne_eq, Nat.compare_eq_eq]
    exact fun he => h (Kind.rank_injective he)
  rw [hv, hw, compare_of_kind_ne h, List.cons_append, List.cons_append,
    List.compare_cons_cons, Mark.compare_eq, compare_succ, Ordering.then_assoc]
  exact then_of_ne hrank

lemma compare_stop_key (v : Value) (ms ns : List Mark) :
    Ord.compare (Mark.stop :: ms) (v.key ++ ns) = .lt := by
  obtain ⟨i, s, vs, hv⟩ := v.key_eq
  have hrank : Ord.compare 0 (v.kind.rank + 1) = .lt := Nat.compare_eq_lt.2 (Nat.succ_pos _)
  rw [hv, List.cons_append, List.compare_cons_cons, Mark.compare_eq, Mark.stop, hrank]
  rfl

lemma compare_key_stop (v : Value) (ms ns : List Mark) :
    Ord.compare (v.key ++ ms) (Mark.stop :: ns) = .gt := by
  rw [Std.OrientedOrd.eq_swap, compare_stop_key]
  rfl

end Value

namespace Object

variable {o p : Object}

lemma key_eq (o : Object) : ∃ marks, o.key = { rank := 0, text := o.typeName } :: marks := by
  cases o <;> exact ⟨_, rfl⟩

/-- Objects that are not of one built-in type are in the order of the names of their types, and then
of their places. -/
lemma compare_of_not_builtIn (h : o.typeName = p.typeName → ¬(o.isBuiltIn ∧ p.isBuiltIn)) :
    o.compare p = (Ord.compare o.typeName p.typeName).then (Ord.compare o.address p.address) := by
  cases o <;> cases p <;> first | rfl | exact absurd ⟨rfl, rfl⟩ (h rfl)

lemma compare_of_typeName_ne (h : o.typeName ≠ p.typeName) :
    o.compare p = Ord.compare o.typeName p.typeName := by
  have hname : Ord.compare o.typeName p.typeName ≠ .eq := by
    rwa [ne_eq, Std.LawfulEqOrd.compare_eq_iff_eq]
  rw [compare_of_not_builtIn (fun he => absurd he h), then_of_ne hname (b := .eq),
    Ordering.then_eq]

lemma compare_key_of_typeName_ne (h : o.typeName ≠ p.typeName) (ms ns : List Mark) :
    Ord.compare (o.key ++ ms) (p.key ++ ns) = (o.compare p).then (Ord.compare ms ns) := by
  obtain ⟨os, ho⟩ := o.key_eq
  obtain ⟨ps, hp⟩ := p.key_eq
  have hname : Ord.compare o.typeName p.typeName ≠ .eq := by
    rwa [ne_eq, Std.LawfulEqOrd.compare_eq_iff_eq]
  rw [ho, hp, compare_of_typeName_ne h, List.cons_append, List.cons_append, List.compare_cons_cons,
    Mark.compare_eq]
  simp only [Std.ReflOrd.compare_self, Ordering.eq_then]
  exact then_of_ne hname

end Object

attribute [local simp] List.compare_cons_cons Mark.compare_eq Ordering.then_assoc

mutual

/-- Where names tell types apart, keys tell values apart as comparisons do, and what comes behind
two keys counts only if the values are equal. -/
theorem Value.compare_key (v w : Value) (ms ns : List Mark)
    (ht : ∀ o ∈ v.parts, ∀ p ∈ w.parts, o.TypesApart p) :
    Ord.compare (v.key ++ ms) (w.key ++ ns) = (v.compare w).then (Ord.compare ms ns) :=
  if h : v.kind = w.kind then
    match v, w, h with
    | .nil, .nil, _ | .null, .null, _ => by simp [Value.key, Value.compare]
    | .null, .object _, _ | .object _, .null, _ => by simp [Value.key, Value.compare]; rfl
    | .bool a, .bool b, _ => by cases a <;> cases b <;> simp [Value.key, Value.compare] <;> rfl
    | .int a, .int b, _ => by simp [Value.key, Value.compare, compare_toInt]
    | .string a, .string b, _ => by simp [Value.key, Value.compare]
    | .object o, .object p, _ => by
      simp [Value.key, Value.compare_object, Object.compare_key o p ms ns ht]
    | .set vs, .set ws, _ => by
      simp [Value.key, Value.compare_set, Value.compare_keys vs ws ms ns ht]
    | .named a v, .named b w, _ => by
      simp [Value.key, Value.compare, Value.compare_key v w ms ns ht]
  else Value.compare_key_of_kind_ne h ms ns

theorem Object.compare_key (o p : Object) (ms ns : List Mark)
    (ht : ∀ q ∈ o.parts, ∀ r ∈ p.parts, q.TypesApart r) :
    Ord.compare (o.key ++ ms) (p.key ++ ns) = (o.compare p).then (Ord.compare ms ns) :=
  have hself : o.TypesApart p := ht o o.mem_parts_self p p.mem_parts_self
  match o, p with
  | .connection _ a, .connection _ b => by simp [Object.key, Object.compare, compare_toNat]
  | .set _ vs, .set _ ws => by
    have hmembers : ∀ o ∈ Value.partsOf vs, ∀ p ∈ Value.partsOf ws, o.TypesApart p :=
      fun o ho p hp => ht o (.tail _ ho) p (.tail _ hp)
    simp [Object.key, Object.compare, Value.compare_keys vs ws ms ns hmembers]
  | .plugin a s, .plugin b t => by
    simp [Object.key, Object.compare, Object.typeName, Object.address, compare_natCast]
  | .connection .., .set .. | .set .., .connection .. =>
    Object.compare_key_of_typeName_ne (by simp [Object.typeName]) ms ns
  | .connection .., .plugin .. | .plugin .., .connection ..
  | .set .., .plugin .. | .plugin .., .set .. =>
    Object.compare_key_of_typeName_ne (hself.typeName_ne (by simp [Object.isBuiltIn])) ms ns

/-- The mark behind the members makes a list of members come before its extensions. -/
theorem Value.compare_keys (vs ws : List Value) (ms ns : List Mark)
    (ht : ∀ o ∈ Value.partsOf vs, ∀ p ∈ Value.partsOf ws, o.TypesApart p) :
    Ord.compare (Value.keys vs ++ .stop :: ms) (Value.keys ws ++ .stop :: ns) =
      (Value.compareMembers vs ws).then (Ord.compare ms ns) :=
  match vs, ws with
  | [], [] => by simp [Value.keys, Value.compareMembers]
  | [], w :: ws => by
    simp only [Value.keys, Value.compareMembers, List.nil_append, List.append_assoc]
    exact Value.compare_stop_key w _ _
  | v :: vs, [] => by
    simp only [Value.keys, Value.compareMembers, List.nil_append, List.append_assoc]
    exact Value.compare_key_stop v _ _
  | v :: vs, w :: ws => by
    have hhead := Value.forall_parts_of_mem ht List.mem_cons_self List.mem_cons_self
    have htail := Value.forall_partsOf_of_subset ht (List.subset_cons_self v vs)
      (List.subset_cons_self w ws)
    simp [Value.keys, Value.compareMembers, Value.compare_key v w _ _ hhead,
      Value.compare_keys vs ws ms ns htail]

end

namespace Value

/-- The order of the keys of values. -/
def keyOrder : Value → Value → Ordering :=
  compareOn key

instance : Std.TransCmp keyOrder :=
  inferInstanceAs (Std.TransCmp (compareOn key))

/-- Where names tell types apart, values are in the order of their keys. -/
theorem compare_eq_keyOrder {v w : Value} (ht : ∀ o ∈ v.parts, ∀ p ∈ w.parts, o.TypesApart p) :
    v.compare w = v.keyOrder w := by
  have h := compare_key v w [] [] ht
  rw [List.append_nil, List.append_nil] at h
  rw [keyOrder, compareOn, h]
  exact Ordering.then_eq.symm

lemma TypesApart.compare_eq {v w : Value} {vs : List Value} (ht : TypesApart vs) (hv : v ∈ vs)
    (hw : w ∈ vs) : v.compare w = v.keyOrder w :=
  compare_eq_keyOrder (forall_parts_of_mem ht hv hw)

end Value

end TransactionEngine
