import TransactionEngine.Proofs.EqualValues

/-!
# The order of values is a linear preorder

Any two values are comparable, and values are equal exactly if neither is smaller. Where names tell
the types of all objects apart, the order is also transitive. An object of another type that is named
as sets are can break that: it comes between two sets by where they are, and the sets come in the
order of their members, which may be the other one.
-/

namespace TransactionEngine.Value

lemma beq_refl (v : Value) : (v == v) = true :=
  (beq_iff_compare v v).2 (compare_self v)

lemma beq_symm {u v : Value} (h : (u == v) = true) : (v == u) = true := by
  rw [beq_iff_compare] at h ⊢
  exact Std.OrientedCmp.eq_symm h

lemma PlacesApart.beq_trans {u v w : Value} (hp : PlacesApart [u, v, w]) (huv : (u == v) = true)
    (hvw : (v == w) = true) : (u == w) = true := by
  have hu : u ∈ [u, v, w] := .head _
  have hv : v ∈ [u, v, w] := .tail _ (.head _)
  have hw : w ∈ [u, v, w] := .tail _ (.tail _ (.head _))
  rw [beq_iff_compare, compare_eq_iff _ _ (forall_parts_of_mem hp hu hv)] at huv
  rw [beq_iff_compare, compare_eq_iff _ _ (forall_parts_of_mem hp hv hw)] at hvw
  rw [beq_iff_compare, compare_eq_iff _ _ (forall_parts_of_mem hp hu hw)]
  exact huv.trans hvw

/-- Any two values are comparable, and a comparison is the other way round if the values are. Equal
are those of which neither is smaller, and that is an equivalence. Where names tell the types of all
objects in values apart, their order is transitive, and equal ones are in one order with others. -/
theorem linear_preorder :
    (∀ v : Value, v.compare v = .eq) ∧
      (∀ u v : Value, u.compare v = (v.compare u).swap) ∧
      (∀ u v : Value, (u == v) = true ↔ u.compare v = .eq) ∧
      (∀ v : Value, (v == v) = true) ∧
      (∀ u v : Value, (u == v) = true → (v == u) = true) ∧
      (∀ u v w : Value, PlacesApart [u, v, w] →
        (u == v) = true → (v == w) = true → (u == w) = true) ∧
      ∀ u v w : Value, TypesApart [u, v, w] →
        ((u.compare v).isLE → (v.compare w).isLE → (u.compare w).isLE) ∧
          ((u == v) = true → u.compare w = v.compare w) := by
  refine ⟨compare_self, fun u v => (compare_swap v u).symm, beq_iff_compare, beq_refl,
    fun _ _ => beq_symm, fun _ _ _ => PlacesApart.beq_trans, fun u v w ht => ?_⟩
  have hu : u ∈ [u, v, w] := .head _
  have hv : v ∈ [u, v, w] := .tail _ (.head _)
  have hw : w ∈ [u, v, w] := .tail _ (.tail _ (.head _))
  rw [beq_iff_compare, ht.compare_eq hu hv, ht.compare_eq hv hw, ht.compare_eq hu hw]
  exact ⟨Std.TransCmp.isLE_trans, Std.TransCmp.congr_left⟩

/-- Named sets of references, which are in the order of the names of types. Two references to one
connection are in one order with the others. -/
theorem linear_preorder_names :
    let v (o : Object) : Value := .named "k" (.set [.int 1, .object o])
    let here := v (.connection 1 7)
    let there := v (.connection 9 7)
    let script := v (.plugin 2 "script")
    let set := v (.set 3 [.nil])
    (PlacesApart [here, there, here] ∧ TypesApart [here, script, set] ∧
        TypesApart [here, there, set]) ∧
      ((here == there) = true ∧ (there == here) = true ∧ (here == here) = true) ∧
      ((here.compare script).isLE ∧ (script.compare set).isLE ∧ (here.compare set).isLE) ∧
      here.compare set = there.compare set := by
  intro v here there script set
  have hp : PlacesApart [here, there, here] := by decide
  have ht : TypesApart [here, script, set] := by decide
  have ht' : TypesApart [here, there, set] := by decide
  have hcompare (o p : Object) : (v o).compare (v p) = o.compare p := by
    rw [compare, compare_set, compareMembers, compareMembers, compare_object]
    simp [compare_self, compareMembers]
  obtain ⟨-, -, hbeq, -, hsymm, htrans, hnames⟩ := linear_preorder
  have heq : (here == there) = true := by
    rw [hbeq, hcompare]
    rfl
  have hback : (there == here) = true := hsymm _ _ heq
  have hlow : (here.compare script).isLE := by
    rw [hcompare]
    decide
  have hhigh : (script.compare set).isLE := by
    rw [hcompare]
    decide
  exact ⟨⟨hp, ht, ht'⟩, ⟨heq, hback, htrans _ _ _ hp heq hback⟩,
    ⟨hlow, hhigh, (hnames _ _ _ ht).1 hlow hhigh⟩, (hnames _ _ _ ht').2 heq⟩

/-- A set with the member 2, an object of another type that is named as sets are, and a set with the
member 1: each is smaller than the next, and the last is smaller than the first. -/
theorem order_in_a_circle :
    let u : Value := .object (.set 1 [.int 2])
    let v : Value := .object (.plugin 2 "set")
    let w : Value := .object (.set 3 [.int 1])
    u.compare v = .lt ∧ v.compare w = .lt ∧ w.compare u = .lt ∧
      ¬((u.compare v).isLE → (v.compare w).isLE → (u.compare w).isLE) := by
  intro u v w
  have huv : u.compare v = .lt := by
    rw [compare_object]
    decide
  have hvw : v.compare w = .lt := by
    rw [compare_object]
    decide
  have hwu : w.compare u = .lt := by
    rw [compare_object]
    decide
  refine ⟨huv, hvw, hwu, ?_⟩
  rw [huv, hvw, ← compare_swap w u, hwu]
  decide

end TransactionEngine.Value
