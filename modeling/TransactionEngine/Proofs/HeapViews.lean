import Mathlib.Data.Finset.Card
import Mathlib.Logic.Relation
import TransactionEngine.Proofs.HandleCounts
import TransactionEngine.Proofs.ValueOrder

/-!
# Values on a heap without circles

A comparison on the heap goes down from set to set and stops at a depth, and so does the view of an
object. Where no set holds itself neither comes to its end: a view has all that a set has now, and
values on the heap are in the order of their views. What is not reached from a set is seen as it
was when the set is changed.
-/

namespace TransactionEngine

mutual

/-- The objects that a value refers to. -/
def Value.objects : Value → List Object
  | .object o => [o]
  | .set members => Value.objectsOf members
  | .named _ v => v.objects
  | _ => []

/-- The objects that values refer to. -/
def Value.objectsOf : List Value → List Object
  | [] => []
  | v :: vs => v.objects ++ Value.objectsOf vs

end

namespace Value

variable {v w : Value} {vs ws : List Value} {f g : Object → Object}
  {objects : Object → Object → Ordering}

lemma objectsOf_eq_flatMap (vs : List Value) : objectsOf vs = vs.flatMap Value.objects := by
  induction vs with
  | nil => rfl
  | cons v vs ih => rw [objectsOf, ih, List.flatMap_cons]

lemma mem_objectsOf {o : Object} : o ∈ objectsOf vs ↔ ∃ v ∈ vs, o ∈ v.objects := by
  rw [objectsOf_eq_flatMap, List.mem_flatMap]

lemma mapObjectsAll_eq_map (f : Object → Object) (vs : List Value) :
    mapObjectsAll f vs = vs.map (mapObjects f) := by
  induction vs with
  | nil => rfl
  | cons v vs ih => rw [mapObjectsAll, ih, List.map_cons]

lemma handlesOf_eq_flatMap (vs : List Value) : handlesOf vs = vs.flatMap handles := by
  induction vs with
  | nil => rfl
  | cons v vs ih => rw [handlesOf, ih, List.flatMap_cons]

end Value

mutual

theorem Value.handles_eq (v : Value) : v.handles = v.objects.map Object.address :=
  match v with
  | .nil | .bool _ | .int _ | .string _ | .null | .object _ => rfl
  | .set members => Value.handlesOf_eq members
  | .named _ v => Value.handles_eq v

theorem Value.handlesOf_eq (vs : List Value) :
    Value.handlesOf vs = (Value.objectsOf vs).map Object.address :=
  match vs with
  | [] => rfl
  | v :: vs => by
    rw [Value.handlesOf, Value.objectsOf, List.map_append, Value.handles_eq v,
      Value.handlesOf_eq vs]

end

mutual

theorem Value.objects_mapObjects (f : Object → Object) (v : Value) :
    (v.mapObjects f).objects = v.objects.map f :=
  match v with
  | .nil | .bool _ | .int _ | .string _ | .null | .object _ => rfl
  | .set members => Value.objectsOf_mapObjectsAll f members
  | .named _ v => Value.objects_mapObjects f v

theorem Value.objectsOf_mapObjectsAll (f : Object → Object) (vs : List Value) :
    Value.objectsOf (Value.mapObjectsAll f vs) = (Value.objectsOf vs).map f :=
  match vs with
  | [] => rfl
  | v :: vs => by
    rw [Value.mapObjectsAll, Value.objectsOf, Value.objectsOf, List.map_append,
      Value.objects_mapObjects f v, Value.objectsOf_mapObjectsAll f vs]

end

mutual

theorem Value.mapObjects_congr {f g : Object → Object} (v : Value)
    (h : ∀ o ∈ v.objects, f o = g o) : v.mapObjects f = v.mapObjects g :=
  match v with
  | .nil | .bool _ | .int _ | .string _ | .null => rfl
  | .object o => congrArg Value.object (h o (List.mem_singleton_self o))
  | .set members => congrArg Value.set (Value.mapObjectsAll_congr members h)
  | .named name v => congrArg (Value.named name) (Value.mapObjects_congr v h)

theorem Value.mapObjectsAll_congr {f g : Object → Object} (vs : List Value)
    (h : ∀ o ∈ Value.objectsOf vs, f o = g o) :
    Value.mapObjectsAll f vs = Value.mapObjectsAll g vs :=
  match vs with
  | [] => rfl
  | v :: vs => by
    rw [Value.objectsOf, List.forall_mem_append] at h
    rw [Value.mapObjectsAll, Value.mapObjectsAll, Value.mapObjects_congr v h.1,
      Value.mapObjectsAll_congr vs h.2]

end

mutual

theorem Value.parts_mapObjects (f : Object → Object) (v : Value) :
    (v.mapObjects f).parts = v.objects.flatMap fun o => (f o).parts :=
  match v with
  | .nil | .bool _ | .int _ | .string _ | .null => rfl
  | .object o => (List.flatMap_singleton (fun o => (f o).parts) o).symm
  | .set members => Value.partsOf_mapObjectsAll f members
  | .named _ v => Value.parts_mapObjects f v

theorem Value.partsOf_mapObjectsAll (f : Object → Object) (vs : List Value) :
    Value.partsOf (Value.mapObjectsAll f vs) =
      (Value.objectsOf vs).flatMap fun o => (f o).parts :=
  match vs with
  | [] => rfl
  | v :: vs => by
    rw [Value.mapObjectsAll, Value.partsOf, Value.objectsOf, List.flatMap_append,
      Value.parts_mapObjects f v, Value.partsOf_mapObjectsAll f vs]

end

lemma Value.kind_mapObjects (f : Object → Object) (v : Value) : (v.mapObjects f).kind = v.kind := by
  cases v <;> rfl

lemma Value.compareOver_of_kind_ne {objects : Object → Object → Ordering} {v w : Value}
    (h : v.kind ≠ w.kind) : v.compareOver objects w = Ord.compare v.kind.rank w.kind.rank := by
  cases v <;> cases w <;> first | rfl | exact absurd rfl h

mutual

/-- An order of objects that is that of other objects in their places makes an order of values that
is that of the values with those objects. -/
theorem Value.compareOver_eq {objects : Object → Object → Ordering} {f : Object → Object}
    (v w : Value)
    (h : ∀ o ∈ v.objects, ∀ p ∈ w.objects, objects o p = (f o).compare (f p)) :
    v.compareOver objects w = (v.mapObjects f).compare (w.mapObjects f) :=
  if hk : v.kind = w.kind then
    match v, w, hk with
    | .nil, .nil, _ | .null, .null, _ | .null, .object _, _ | .object _, .null, _ => rfl
    | .bool _, .bool _, _ | .int _, .int _, _ | .string _, .string _, _ => rfl
    | .object o, .object p, _ =>
      (h o (List.mem_singleton_self o) p (List.mem_singleton_self p)).trans
        (Value.compare_object (f o) (f p)).symm
    | .set vs, .set ws, _ =>
      (Value.compareMembersOver_eq vs ws h).trans (Value.compare_set _ _).symm
    | .named a v, .named b w, _ => by
      rw [Value.compareOver, Value.compareOver_eq v w h]
      rfl
  else by
    have hk' : (v.mapObjects f).kind ≠ (w.mapObjects f).kind := by
      rwa [Value.kind_mapObjects, Value.kind_mapObjects]
    rw [Value.compareOver_of_kind_ne hk, Value.compare_of_kind_ne hk', Value.kind_mapObjects,
      Value.kind_mapObjects]

theorem Value.compareMembersOver_eq {objects : Object → Object → Ordering} {f : Object → Object}
    (vs ws : List Value)
    (h : ∀ o ∈ Value.objectsOf vs, ∀ p ∈ Value.objectsOf ws, objects o p = (f o).compare (f p)) :
    Value.compareMembersOver objects vs ws =
      Value.compareMembers (Value.mapObjectsAll f vs) (Value.mapObjectsAll f ws) :=
  match vs, ws with
  | [], [] | [], _ :: _ | _ :: _, [] => rfl
  | v :: vs, w :: ws => by
    have hhead := Value.compareOver_eq v w fun o ho p hp =>
      h o (List.mem_append_left _ ho) p (List.mem_append_left _ hp)
    have htail := Value.compareMembersOver_eq vs ws fun o ho p hp =>
      h o (List.mem_append_right _ ho) p (List.mem_append_right _ hp)
    rw [Value.compareMembersOver, hhead, htail]
    rfl

end

namespace Heap

/-- The set at an address has a member that holds a handle to the object at another one. -/
def Holds (h : Heap) (a b : Nat) : Prop :=
  b ∈ Value.handlesOf (h.members a)

/-- The object is alive, and bare as the heap keeps references to it. -/
def Refers (h : Heap) (o : Object) : Prop :=
  (h.object? o.address).map Object.bare = some o

/-- No set holds itself, be it through the members of its members. -/
def Acyclic (h : Heap) : Prop :=
  ∀ a, ¬Relation.TransGen h.Holds a a

/-- The members of sets are of live objects, and no set holds itself. -/
structure Sound (h : Heap) : Prop where
  refers (a : Nat) : ∀ o ∈ Value.objectsOf (h.members a), h.Refers o
  acyclic : h.Acyclic

variable {h h' : Heap} {a b : Nat} {o p : Object} {rank : Nat → Nat}

lemma Refers.alive (ho : h.Refers o) : o.address ∈ h.addresses := by
  by_contra hn
  rw [Refers, object?, cell?_eq_none_iff.2 hn] at ho
  cases ho

lemma Refers.eq (ho : h.Refers o) (hp : h.Refers p) (he : o.address = p.address) : o = p :=
  Option.some.inj (ho.symm.trans ((congrArg _ (congrArg _ he)).trans hp))

/-- Every set ranks above what it holds. -/
def Ranked (h : Heap) (rank : Nat → Nat) : Prop :=
  ∀ a b, h.Holds a b → rank b < rank a

lemma Ranked.acyclic (hr : h.Ranked rank) : h.Acyclic := by
  have hlt {a b : Nat} (ht : Relation.TransGen h.Holds a b) : rank b < rank a := by
    induction ht with
    | single hab => exact hr _ _ hab
    | tail _ hbc ih => exact Nat.lt_trans (hr _ _ hbc) ih
  exact fun a ht => Nat.lt_irrefl _ (hlt ht)

lemma Sound.alive (hs : h.Sound) (hab : h.Holds a b) : b ∈ h.addresses := by
  rw [Holds, Value.handlesOf_eq] at hab
  obtain ⟨o, ho, rfl⟩ := List.mem_map.1 hab
  exact (hs.refers a o ho).alive

open Classical in
/-- The number of live objects that are reached from a set ranks it. -/
lemma Sound.exists_rank (hs : h.Sound) :
    ∃ rank, h.Ranked rank ∧ ∀ a ∈ h.addresses, rank a < h.cells.length := by
  refine ⟨fun a => (h.addresses.toFinset.filter (Relation.TransGen h.Holds a)).card, ?_, ?_⟩
  · intro a b hab
    refine Finset.card_lt_card ((Finset.ssubset_iff_of_subset ?_).2 ⟨b, ?_, ?_⟩)
    · exact Finset.monotone_filter_right _ fun c _ hbc => .head hab hbc
    · exact Finset.mem_filter.2 ⟨List.mem_toFinset.2 (hs.alive hab), .single hab⟩
    · exact fun hb => hs.acyclic b (Finset.mem_filter.1 hb).2
  · intro a ha
    have hlt : (h.addresses.toFinset.filter (Relation.TransGen h.Holds a)).card <
        h.addresses.toFinset.card := by
      refine Finset.card_lt_card ((Finset.ssubset_iff_of_subset (Finset.filter_subset _ _)).2
        ⟨a, List.mem_toFinset.2 ha, ?_⟩)
      exact fun hmem => hs.acyclic a (Finset.mem_filter.1 hmem).2
    have hle := List.toFinset_card_le h.addresses
    rw [addresses, List.length_map] at hle
    exact Nat.lt_of_lt_of_le hlt hle

/-! ### Views -/

lemma Ranked.lt (hr : h.Ranked rank) (ho : o ∈ Value.objectsOf (h.members a)) :
    rank o.address < rank a := by
  refine hr a o.address ?_
  rw [Holds, Value.handlesOf_eq]
  exact List.mem_map_of_mem ho

/-- A view does not depend on the depth at which it stops, nor on the way down to it. -/
lemma Ranked.viewTo_congr (hr : h.Ranked rank) {m n : Nat} {path others : List Nat}
    (hm : rank o.address < m) (hn : rank o.address < n)
    (hpath : ∀ b ∈ path, rank o.address < rank b)
    (hothers : ∀ b ∈ others, rank o.address < rank b) :
    h.viewTo m path o = h.viewTo n others o := by
  induction m generalizing n path others o with
  | zero => exact absurd hm (Nat.not_lt_zero _)
  | succ m ih =>
    obtain ⟨n, rfl⟩ := Nat.exists_eq_succ_of_ne_zero (Nat.ne_zero_of_lt hn)
    cases o with
    | connection => rfl
    | plugin => rfl
    | set a members =>
      have hnone {path : List Nat} (hpath : ∀ b ∈ path, rank a < rank b) :
          path.contains a = false := by
        simpa using fun hmem => Nat.lt_irrefl _ (hpath a hmem)
      rw [viewTo, viewTo, hnone hpath, hnone hothers]
      refine congrArg (Object.set a) (Value.mapObjectsAll_congr _ fun o ho => ?_)
      have hlt := hr.lt ho
      refine ih (Nat.lt_of_lt_of_le hlt (Nat.le_of_lt_succ hm))
        (Nat.lt_of_lt_of_le hlt (Nat.le_of_lt_succ hn)) ?_ ?_
      · exact List.forall_mem_cons.2 ⟨hlt, fun b hb => Nat.lt_trans hlt (hpath b hb)⟩
      · exact List.forall_mem_cons.2 ⟨hlt, fun b hb => Nat.lt_trans hlt (hothers b hb)⟩

/-- The view of a set has the views of the members that it has now. -/
lemma Sound.view_set (hs : h.Sound) (ha : a ∈ h.addresses) (members : List Value) :
    h.view (.set a members) = .set a (Value.mapObjectsAll h.view (h.members a)) := by
  obtain ⟨rank, hr, hlt⟩ := hs.exists_rank
  have hlt := hlt a ha
  obtain ⟨n, hn⟩ := Nat.exists_eq_succ_of_ne_zero (Nat.ne_zero_of_lt hlt)
  rw [view, hn, viewTo]
  refine congrArg (Object.set a) (Value.mapObjectsAll_congr _ fun o ho => ?_)
  have hoa := hr.lt ho
  refine hr.viewTo_congr (by omega) (by omega) ?_ nofun
  exact List.forall_mem_singleton.2 hoa

lemma view_connection (a : Nat) (id : UInt64) :
    h.view (.connection a id) = .connection a id := by
  rw [view]
  cases h.cells.length <;> rfl

lemma view_plugin (a : Nat) (type : String) : h.view (.plugin a type) = .plugin a type := by
  rw [view]
  cases h.cells.length <;> rfl

lemma Sound.compareTo_eq (hs : h.Sound) (hr : h.Ranked rank) {n : Nat} (ho : h.Refers o)
    (hp : h.Refers p) (hn : rank o.address < n) :
    h.compareTo n o p = (h.view o).compare (h.view p) := by
  induction n generalizing o p with
  | zero => exact absurd hn (Nat.not_lt_zero _)
  | succ n ih =>
    by_cases he : o.address = p.address
    · rw [ho.eq hp he, Object.compare_self]
      exact if_pos rfl
    refine (if_neg he).trans ?_
    cases o with
    | connection =>
      cases p with
      | connection => rw [view_connection, view_connection]
      | plugin => rw [view_connection, view_plugin]
      | set b others =>
        rw [view_connection, hs.view_set (a := b) hp.alive]
        rfl
    | plugin =>
      cases p with
      | connection => rw [view_connection, view_plugin]
      | plugin => rw [view_plugin, view_plugin]
      | set b others =>
        rw [view_plugin, hs.view_set (a := b) hp.alive]
        rfl
    | set a members =>
      rw [hs.view_set (a := a) ho.alive]
      cases p with
      | connection =>
        rw [view_connection]
        rfl
      | plugin =>
        rw [view_plugin]
        rfl
      | set b others =>
        rw [hs.view_set (a := b) hp.alive]
        refine Value.compareMembersOver_eq _ _ fun o ho p hp => ?_
        have hlt := hr.lt ho
        exact ih (hs.refers a o ho) (hs.refers b p hp)
          (Nat.lt_of_lt_of_le hlt (Nat.le_of_lt_succ hn))

/-- Every reference in the value is to a live object. -/
def Knows (h : Heap) (v : Value) : Prop :=
  ∀ o ∈ v.objects, h.Refers o

lemma Sound.compareObjects_eq (hs : h.Sound) (ho : h.Refers o) (hp : h.Refers p) :
    h.compareObjects o p = (h.view o).compare (h.view p) := by
  obtain ⟨rank, hr, hlt⟩ := hs.exists_rank
  refine hs.compareTo_eq hr ho hp ?_
  have hlen := hlt _ ho.alive
  have hsq := Nat.le_mul_self h.cells.length
  rw [depth]
  omega

/-- Values on the heap are in the order of their views. -/
theorem Sound.compare_eq (hs : h.Sound) {v w : Value} (hv : h.Knows v) (hw : h.Knows w) :
    h.compare v w = (h.viewValue v).compare (h.viewValue w) :=
  Value.compareOver_eq v w fun o ho p hp => hs.compareObjects_eq (hv o ho) (hw p hp)

/-- The object is of the type of a live one. -/
def Typed (h : Heap) (o : Object) : Prop :=
  ∃ c ∈ h.cells, c.object.typeName = o.typeName ∧ c.object.isBuiltIn = o.isBuiltIn

/-- Names tell the types of all live objects apart. -/
def TypesApart (h : Heap) : Prop :=
  ∀ c ∈ h.cells, ∀ d ∈ h.cells, c.object.TypesApart d.object

instance (h : Heap) : Decidable h.TypesApart :=
  inferInstanceAs (Decidable (∀ c ∈ h.cells, ∀ d ∈ h.cells, c.object.TypesApart d.object))

lemma Refers.exists_cell (ho : h.Refers o) : ∃ c ∈ h.cells, c.object.bare = o := by
  obtain ⟨object, hobject, hbare⟩ := Option.map_eq_some_iff.1 ho
  obtain ⟨c, hc, rfl⟩ := Option.map_eq_some_iff.1 hobject
  exact ⟨c, (cell?_mem hc).1, hbare⟩

lemma Refers.typed (ho : h.Refers o) : h.Typed o := by
  obtain ⟨c, hc, rfl⟩ := ho.exists_cell
  exact ⟨c, hc, by cases c.object <;> rfl, by cases c.object <;> rfl⟩

lemma Refers.typed_of_mem (ho : h.Refers o) (hp : p ∈ o.parts) : h.Typed p := by
  have hparts : o.parts = [o] := by
    obtain ⟨c, -, rfl⟩ := ho.exists_cell
    cases c.object <;> rfl
  rw [hparts, List.mem_singleton] at hp
  exact hp ▸ ho.typed

/-- All that is seen of an object is of types of live ones. -/
lemma Sound.typed_of_mem_viewTo (hs : h.Sound) (ho : h.Refers o) {n : Nat} {path : List Nat}
    (hp : p ∈ (h.viewTo n path o).parts) : h.Typed p := by
  induction n generalizing path o with
  | zero => exact ho.typed_of_mem hp
  | succ n ih =>
    cases o with
    | connection => exact ho.typed_of_mem hp
    | plugin => exact ho.typed_of_mem hp
    | set a members =>
      rw [viewTo] at hp
      split at hp
      · exact ho.typed_of_mem hp
      · obtain rfl | hp := List.mem_cons.1 hp
        · exact ho.typed
        · rw [Value.partsOf_mapObjectsAll, List.mem_flatMap] at hp
          obtain ⟨q, hq, hp⟩ := hp
          exact ih (hs.refers a q hq) hp

lemma Sound.typesApart (hs : h.Sound) (ht : h.TypesApart) {vs : List Value}
    (hv : ∀ v ∈ vs, h.Knows v) : Value.TypesApart (vs.map h.viewValue) := by
  have htyped : ∀ o ∈ Value.partsOf (vs.map h.viewValue), h.Typed o := by
    intro o ho
    obtain ⟨view, hview, ho⟩ := Value.mem_partsOf.1 ho
    obtain ⟨v, hmem, rfl⟩ := List.mem_map.1 hview
    rw [viewValue, Value.parts_mapObjects, List.mem_flatMap] at ho
    obtain ⟨q, hq, ho⟩ := ho
    exact hs.typed_of_mem_viewTo (hv v hmem q hq) ho
  intro o ho p hp he
  obtain ⟨c, hc, hname, hbuiltIn⟩ := htyped o ho
  obtain ⟨d, hd, hname', hbuiltIn'⟩ := htyped p hp
  rw [← hname, ← hname'] at he
  rw [← hbuiltIn, ← hbuiltIn']
  exact ht c hc d hd he

lemma Sound.compare_eq_keyOrder (hs : h.Sound) (ht : h.TypesApart) {v w : Value} (hv : h.Knows v)
    (hw : h.Knows w) : h.compare v w = (h.viewValue v).keyOrder (h.viewValue w) := by
  have hboth : ∀ u ∈ [v, w], h.Knows u :=
    List.forall_mem_cons.2 ⟨hv, List.forall_mem_singleton.2 hw⟩
  rw [hs.compare_eq hv hw]
  exact (hs.typesApart ht hboth).compare_eq (.head _) (.tail _ (.head _))

/-- The sets at these addresses have the same members in both heaps, and hold no other objects. -/
def Agree (h h' : Heap) (s : Set Nat) : Prop :=
  ∀ a ∈ s, h'.members a = h.members a ∧ ∀ b, h.Holds a b → b ∈ s

lemma Agree.viewTo {s : Set Nat} (hg : h.Agree h' s) (ho : o.address ∈ s) (n : Nat)
    (path : List Nat) : h'.viewTo n path o = h.viewTo n path o := by
  induction n generalizing path o with
  | zero => rfl
  | succ n ih =>
    cases o with
    | connection => rfl
    | plugin => rfl
    | set a members =>
      obtain ⟨hm, hheld⟩ := hg a ho
      rw [Heap.viewTo, Heap.viewTo, hm]
      split
      · rfl
      · refine congrArg (Object.set a) (Value.mapObjectsAll_congr _ fun o ho => ih (hheld _ ?_) _)
        rw [Holds, Value.handlesOf_eq]
        exact List.mem_map_of_mem ho

lemma Agree.view {s : Set Nat} (hg : h.Agree h' s) (hs : h.Sound) (hs' : h'.Sound)
    (ho : o.address ∈ s) (hl : o.address ∈ h.addresses) (hl' : o.address ∈ h'.addresses) :
    h'.view o = h.view o := by
  obtain ⟨rank, hr, hlt⟩ := hs.exists_rank
  obtain ⟨rank', hr', hlt'⟩ := hs'.exists_rank
  have hlt := hlt _ hl
  have hlt' := hlt' _ hl'
  let n := max h.cells.length h'.cells.length
  calc h'.view o = h'.viewTo n [] o := hr'.viewTo_congr hlt' (by omega) nofun nofun
    _ = h.viewTo n [] o := hg.viewTo ho n []
    _ = h.view o := hr.viewTo_congr (by omega) hlt nofun nofun

/-- Values of objects that heaps agree on are in one order in both. -/
theorem Agree.compare {s : Set Nat} (hg : h.Agree h' s) (hs : h.Sound) (hs' : h'.Sound)
    {v w : Value} (hv : ∀ o ∈ v.objects, h.Refers o ∧ h'.Refers o ∧ o.address ∈ s)
    (hw : ∀ o ∈ w.objects, h.Refers o ∧ h'.Refers o ∧ o.address ∈ s) :
    h'.compare v w = h.compare v w := by
  have hview {v : Value} (hv : ∀ o ∈ v.objects, h.Refers o ∧ h'.Refers o ∧ o.address ∈ s) :
      h'.viewValue v = h.viewValue v := by
    refine Value.mapObjects_congr v fun o ho => ?_
    obtain ⟨hl, hl', hmem⟩ := hv o ho
    exact hg.view hs hs' hmem hl.alive hl'.alive
  rw [hs'.compare_eq (fun o ho => (hv o ho).2.1) fun o ho => (hw o ho).2.1, hview hv, hview hw,
    hs.compare_eq (fun o ho => (hv o ho).1) fun o ho => (hw o ho).1]

end Heap

end TransactionEngine
