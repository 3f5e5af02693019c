import TransactionEngine.Proofs.CanonicalSets
import TransactionEngine.Proofs.HandleHistory
import TransactionEngine.Proofs.Replays

/-!
# Sets that are shared

A set is changed through any handle to it, also while it is a member of other sets, and those sets
do not look for a new place for it. They stay in order exactly as long as no value that is passed
on to a set changes how two members of one set compare.
-/

namespace TransactionEngine

mutual

/-- The members of the sets that a value is made of; objects are not looked into. -/
def Value.sets : Value → List (List Value)
  | .set members => members :: Value.setsOf members
  | .named _ v => v.sets
  | _ => []

/-- The members of the sets that values are made of. -/
def Value.setsOf : List Value → List (List Value)
  | [] => []
  | v :: vs => v.sets ++ Value.setsOf vs

end

/-- The members of the sets that an object is made of. -/
def Object.sets : Object → List (List Value)
  | .set _ members => members :: Value.setsOf members
  | _ => []

lemma Value.mem_setsOf {vs ms : List Value} : ms ∈ Value.setsOf vs ↔ ∃ v ∈ vs, ms ∈ v.sets := by
  induction vs with
  | nil => simp [Value.setsOf]
  | cons v vs ih => simp [Value.setsOf, ih]

mutual

theorem Value.objectsOf_subset (v : Value) {ms : List Value} (hm : ms ∈ v.sets) :
    Value.objectsOf ms ⊆ v.objects :=
  match v, hm with
  | .set members, hm => by
    obtain rfl | hm := List.mem_cons.1 hm
    · exact List.Subset.refl _
    · exact Value.objectsOf_subset_of_mem members hm
  | .named _ v, hm => Value.objectsOf_subset v hm

theorem Value.objectsOf_subset_of_mem (vs : List Value) {ms : List Value}
    (hm : ms ∈ Value.setsOf vs) : Value.objectsOf ms ⊆ Value.objectsOf vs :=
  match vs, hm with
  | v :: vs, hm => by
    obtain hm | hm := List.mem_append.1 hm
    · exact List.subset_append_of_subset_left _ (Value.objectsOf_subset v hm)
    · exact List.subset_append_of_subset_right _ (Value.objectsOf_subset_of_mem vs hm)

end

lemma Object.mem_sets {o : Object} {ms : List Value} (hm : ms ∈ o.sets) :
    ms ∈ (Value.set o.members).sets := by
  cases o with
  | connection => cases hm
  | plugin => cases hm
  | set => exact hm

lemma Object.objectsOf_subset {o : Object} {ms : List Value} (hm : ms ∈ o.sets) :
    Value.objectsOf ms ⊆ Value.objectsOf o.members :=
  Value.objectsOf_subset (.set o.members) (Object.mem_sets hm)

namespace Heap

/-- The members of all the sets there are: of the live ones, and of those that stand in their
members. -/
def sets (h : Heap) : List (List Value) :=
  h.cells.flatMap fun c => c.object.sets

/-- The members of every set are strictly increasing. -/
def InOrder (h : Heap) : Prop :=
  ∀ ms ∈ h.sets, ms.Pairwise fun v w => h.compare v w = .lt

/-- The members of every set that the value is made of are strictly increasing. -/
def Orders (h : Heap) (v : Value) : Prop :=
  ∀ ms ∈ v.sets, ms.Pairwise fun v w => h.compare v w = .lt

/-- No two members of one set compare otherwise in the second heap. -/
def Undisturbed (h h' : Heap) : Prop :=
  ∀ ms ∈ h.sets, ∀ v ∈ ms, ∀ w ∈ ms, h'.compare v w = h.compare v w

/-- Each value of the one list is equal to a value of the other now. -/
def SameMembers (h : Heap) (vs ws : List Value) : Prop :=
  (∀ v ∈ vs, ∃ w ∈ ws, h.compare v w = .eq) ∧ ∀ w ∈ ws, ∃ v ∈ vs, h.compare w v = .eq

/-- Sets with the same members are equal, and have one hash and one wire form. -/
structure Alike (h : Heap) : Prop where
  values : ∀ ms ∈ h.sets, ∀ ns ∈ h.sets, h.SameMembers ms ns →
    h.compare (.set ms) (.set ns) = .eq ∧
      (h.viewValue (.set ms)).hash = (h.viewValue (.set ns)).hash ∧
      (h.viewValue (.set ms)).toJson = (h.viewValue (.set ns)).toJson
  objects {a b : Nat} {ms ns : List Value} : h.object? a = some (.set a ms) →
    h.object? b = some (.set b ns) → h.SameMembers ms ns →
    h.compareObjects (.set a ms) (.set b ns) = .eq ∧
      h.compareOwn (.set a ms) (.set b ns) = .ok .eq ∧
      (h.view (.set a ms)).hashOwn = (h.view (.set b ns)).hashOwn ∧
      (h.view (.set a ms)).dump = (h.view (.set b ns)).dump

variable {h h' : Heap} {outside : List Nat} {a b : Nat} {c : Cell} {o : Object} {v w : Value}
  {ms ns : List Value}

lemma Kept.sound (hk : h.Kept outside) (ha : h.Acyclic) : h.Sound := by
  refine ⟨fun a o ho => ?_, ha⟩
  rw [members_eq] at ho
  cases he : h.object? a with
  | none => rw [he] at ho; cases ho
  | some object =>
    rw [he] at ho
    obtain ⟨c, hc, rfl, -⟩ := exists_of_object? he
    exact hk.refers c hc o ho

/-- Objects that hold only older ones cannot hold themselves. -/
lemma acyclic_of_cells
    (hcells : ∀ c ∈ h.cells, ∀ b ∈ Value.handlesOf c.object.members, b < c.object.address) :
    h.Acyclic := by
  have hr : h.Ranked id := by
    intro a b hab
    rw [Holds, members_eq] at hab
    cases ho : h.object? a with
    | none => rw [ho] at hab; cases hab
    | some o =>
      rw [ho] at hab
      obtain ⟨c, hc, rfl, rfl⟩ := exists_of_object? ho
      exact hcells c hc b hab
  exact hr.acyclic

lemma mem_sets : ms ∈ h.sets ↔ ∃ c ∈ h.cells, ms ∈ c.object.sets :=
  List.mem_flatMap

lemma mem_sets_of_object (ho : h.object? a = some o) (hm : ms ∈ o.sets) : ms ∈ h.sets := by
  obtain ⟨c, hc, rfl, -⟩ := exists_of_object? ho
  exact mem_sets.2 ⟨c, hc, hm⟩

lemma Kept.knows (hk : h.Kept outside) (hm : ms ∈ h.sets) (hv : v ∈ ms) : h.Knows v := by
  obtain ⟨c, hc, hm⟩ := mem_sets.1 hm
  intro o ho
  exact hk.refers c hc o (Object.objectsOf_subset hm (Value.mem_objectsOf.2 ⟨v, hv, ho⟩))

lemma Sound.compare_self (hs : h.Sound) (hv : h.Knows v) : h.compare v v = .eq := by
  rw [hs.compare_eq hv hv, Value.compare_self]

lemma Sound.compare_swap (hs : h.Sound) (hv : h.Knows v) (hw : h.Knows w) :
    h.compare v w = (h.compare w v).swap := by
  rw [hs.compare_eq hv hw, hs.compare_eq hw hv]
  exact Std.OrientedCmp.eq_swap

lemma Sound.arranged (hs : h.Sound) (ht : h.TypesApart) (hv : h.Knows v)
    (hm : ∀ w ∈ ms, h.Knows w) (hp : ms.Pairwise fun v w => h.compare v w = .lt) :
    Arranged (h.compare v) ms := by
  have : Std.TransCmp fun v w => (h.viewValue v).keyOrder (h.viewValue w) :=
    { eq_swap := Std.OrientedCmp.eq_swap
      isLE_trans := Std.TransCmp.isLE_trans }
  have hkeys : ms.Pairwise fun v w => (h.viewValue v).keyOrder (h.viewValue w) = .lt :=
    hp.imp_of_mem fun hv hw hlt => by rwa [← hs.compare_eq_keyOrder ht (hm _ hv) (hm _ hw)]
  refine (arranged_of_pairwise v hkeys).imp_of_mem fun hw hu h => ?_
  rwa [hs.compare_eq_keyOrder ht hv (hm _ hw), hs.compare_eq_keyOrder ht hv (hm _ hu)]

lemma Sound.pairwise_insert {members now : List Member} (hs : h.Sound) (ht : h.TypesApart)
    (hv : h.Knows v) (hm : ∀ w ∈ members.map Member.value, h.Knows w)
    (hp : (members.map Member.value).Pairwise fun v w => h.compare v w = .lt)
    (hi : Member.insert h.compare v members = some now) :
    (now.map Member.value).Pairwise fun v w => h.compare v w = .lt := by
  have hplaced := Member.placed_insert (hs.arranged ht hv hm hp)
  rw [hi] at hplaced
  refine hplaced.pairwise (fun w hw hgt => ?_) hp
  rw [hs.compare_swap (hm w hw) hv, hgt]
  rfl

lemma Sound.pairwise_collect (hs : h.Sound) (ht : h.TypesApart) {items : List Value}
    (hn : ∀ v ∈ items, h.Knows (v.mapObjects Object.bare)) :
    ((Handles.collect h items).map Member.value).Pairwise fun v w => h.compare v w = .lt := by
  induction items using List.reverseRecOn with
  | nil => exact .nil
  | append_singleton items v ih =>
    have hitems : ∀ w ∈ items, h.Knows (w.mapObjects Object.bare) := fun w hw =>
      hn w (List.mem_append_left _ hw)
    have hv := hn v (List.mem_append_right _ (List.mem_singleton_self v))
    have hm : ∀ w ∈ (Handles.collect h items).map Member.value, h.Knows w := by
      intro w hw
      obtain ⟨u, hu, rfl⟩ := Handles.mem_collect hw
      exact hitems u hu
    rw [Handles.collect, List.foldl_append, List.foldl_cons, List.foldl_nil, ← Handles.collect]
    cases hi : Member.insert h.compare (v.mapObjects Object.bare) (Handles.collect h items) with
    | none => exact ih hitems
    | some now => exact hs.pairwise_insert ht hv hm (ih hitems) hi

lemma Kept.increasing (hk : h.Kept outside) (hs : h.Sound) (hin : h.InOrder) (hm : ms ∈ h.sets) :
    Value.Increasing (Value.mapObjectsAll h.view ms) := by
  rw [Value.mapObjectsAll_eq_map]
  refine List.pairwise_map.2 ((hin ms hm).imp_of_mem fun hv hw hlt => ?_)
  rwa [← viewValue, ← hs.compare_eq (hk.knows hm hv) (hk.knows hm hw)]

lemma Kept.typesApart (hk : h.Kept outside) (hs : h.Sound) (ht : h.TypesApart) (hm : ms ∈ h.sets)
    (hn : ns ∈ h.sets) :
    Value.TypesApart (Value.mapObjectsAll h.view ms ++ Value.mapObjectsAll h.view ns) := by
  rw [Value.mapObjectsAll_eq_map, Value.mapObjectsAll_eq_map, ← List.map_append]
  exact hs.typesApart ht (List.forall_mem_append.2
    ⟨fun v hv => hk.knows hm hv, fun v hv => hk.knows hn hv⟩)

lemma Kept.compareMembers_eq (hk : h.Kept outside) (hs : h.Sound) (ht : h.TypesApart)
    (hin : h.InOrder) (hm : ms ∈ h.sets) (hn : ns ∈ h.sets) (hsame : h.SameMembers ms ns) :
    Value.compareMembers (Value.mapObjectsAll h.view ms) (Value.mapObjectsAll h.view ns) = .eq := by
  refine (hk.increasing hs hin hm).compareMembers_eq (hk.increasing hs hin hn)
    (hk.typesApart hs ht hm hn) (Value.sameMembers_iff.2 ?_)
  have hhalf {ms ns : List Value} (hm : ms ∈ h.sets) (hn : ns ∈ h.sets)
      (hsame : ∀ v ∈ ms, ∃ w ∈ ns, h.compare v w = .eq) :
      ∀ v ∈ ms.map h.viewValue, ∃ w ∈ ns.map h.viewValue, v.compare w = .eq := by
    refine List.forall_mem_map.2 fun v hv => ?_
    obtain ⟨w, hw, he⟩ := hsame v hv
    refine ⟨h.viewValue w, List.mem_map_of_mem hw, ?_⟩
    rw [← hs.compare_eq (hk.knows hm hv) (hk.knows hn hw), he]
  rw [Value.mapObjectsAll_eq_map, Value.mapObjectsAll_eq_map]
  exact ⟨hhalf hm hn hsame.1, hhalf hn hm hsame.2⟩

lemma Kept.knows_set (hk : h.Kept outside) (hm : ms ∈ h.sets) : h.Knows (.set ms) := by
  intro o ho
  obtain ⟨v, hv, ho⟩ := Value.mem_objectsOf.1 ho
  exact hk.knows hm hv o ho

/-- Where all members are in order, sets with the same members are alike. -/
theorem InOrder.alike (hin : h.InOrder) (hk : h.Kept outside) (ha : h.Acyclic)
    (ht : h.TypesApart) : h.Alike := by
  have hs := hk.sound ha
  have hover {ms ns : List Value} (hm : ms ∈ h.sets) (hn : ns ∈ h.sets)
      (hsame : h.SameMembers ms ns) : Value.compareMembersOver h.compareObjects ms ns = .eq := by
    have he := hs.compare_eq (hk.knows_set hm) (hk.knows_set hn)
    exact he.trans ((Value.compare_set _ _).trans (hk.compareMembers_eq hs ht hin hm hn hsame))
  constructor
  · intro ms hm ns hn hsame
    have hc := (Value.set_alike (hk.typesApart hs ht hm hn).placesApart
      (hk.compareMembers_eq hs ht hin hm hn hsame) 0 0).1
    change Value.content (h.viewValue (.set ms)) = Value.content (h.viewValue (.set ns)) at hc
    refine ⟨hover hm hn hsame, ?_, ?_⟩
    · rw [← Value.hash_content, hc, Value.hash_content]
    · rw [← Value.toJson_content, hc, Value.toJson_content]
  · intro a b ms ns hoa hob hsame
    have hm := mem_sets_of_object hoa List.mem_cons_self
    have hn := mem_sets_of_object hob List.mem_cons_self
    have hma : h.members a = ms := by rw [members_eq, hoa]; rfl
    have hmb : h.members b = ns := by rw [members_eq, hob]; rfl
    have hra : h.Refers (.set a []) := by rw [Refers, Object.address, hoa]; rfl
    have hrb : h.Refers (.set b []) := by rw [Refers, Object.address, hob]; rfl
    have hview (ms : List Value) := hs.view_set (a := a) hra.alive ms
    have hview' (ns : List Value) := hs.view_set (a := b) hrb.alive ns
    have heq := hk.compareMembers_eq hs ht hin hm hn hsame
    obtain ⟨-, hhash, hdump⟩ :=
      Value.set_alike (hk.typesApart hs ht hm hn).placesApart heq a b
    refine ⟨?_, ?_, ?_, ?_⟩
    · change h.compareObjects (.set a []) (.set b []) = .eq
      rw [hs.compareObjects_eq hra hrb, hview, hview', hma, hmb]
      exact heq
    · rw [compareOwn, hma, hmb, hover hm hn hsame]
    · rw [hview, hview', hma, hmb, hhash]
    · rw [hview, hview', hma, hmb, hdump]

/-! ### Comparing on two heaps -/

/-- A heap and a later one in which the sets at some addresses have the members that they had, if
they are still alive. -/
structure Later (h h' : Heap) (p : Nat → Prop) : Prop where
  sound : h.Sound
  sound' : h'.Sound
  closed {a b : Nat} : p a → h.Holds a b → p b
  members {a : Nat} : p a → a ∈ h.addresses → a ∈ h'.addresses → h'.members a = h.members a

/-- The value refers to objects at such addresses that are alive in both heaps. -/
def Shared (h h' : Heap) (p : Nat → Prop) (v : Value) : Prop :=
  ∀ o ∈ v.objects, h.Refers o ∧ h'.Refers o ∧ p o.address

variable {p : Nat → Prop}

lemma Later.compare (hl : h.Later h' p) (hv : h.Shared h' p v) (hw : h.Shared h' p w) :
    h'.compare v w = h.compare v w := by
  have hagree : h.Agree h' {a | p a ∧ a ∈ h.addresses ∧ a ∈ h'.addresses} := by
    rintro a ⟨hp, ha, ha'⟩
    have hm := hl.members hp ha ha'
    refine ⟨hm, fun b hb => ⟨hl.closed hp hb, hl.sound.alive hb, ?_⟩⟩
    refine hl.sound'.alive (a := a) ?_
    rw [Holds, hm]
    exact hb
  have hmem {v : Value} (hv : h.Shared h' p v) : ∀ o ∈ v.objects, h.Refers o ∧ h'.Refers o ∧
      o.address ∈ {a | p a ∧ a ∈ h.addresses ∧ a ∈ h'.addresses} := by
    intro o ho
    obtain ⟨hr, hr', hp⟩ := hv o ho
    exact ⟨hr, hr', hp, hr.alive, hr'.alive⟩
  exact hagree.compare hl.sound hl.sound' (hmem hv) (hmem hw)

lemma Later.pairwise (hl : h.Later h' p) (hm : ∀ v ∈ ms, h.Shared h' p v)
    (hp : ms.Pairwise fun v w => h.compare v w = .lt) :
    ms.Pairwise fun v w => h'.compare v w = .lt :=
  hp.imp_of_mem fun hv hw hlt => (hl.compare (hm _ hv) (hm _ hw)).trans hlt

lemma later_of_cells (hs : h.Sound) (hs' : h'.Sound) (hcells : ∀ c ∈ h'.cells,
    h.object? c.object.address = some c.object ∨ c.object.address ∉ h.addresses) :
    h.Later h' fun _ => True := by
  refine ⟨hs, hs', fun _ _ => trivial, fun {a} _ ha ha' => ?_⟩
  obtain ⟨c, hc, rfl, hnow⟩ := exists_object ha'
  obtain hold | hnew := hcells c hc
  · rw [members_eq, members_eq, hold, hnow]
  · exact absurd ha hnew

/-- A call that passes no value on leaves sets in order, and makes new ones in order. -/
lemma InOrder.other {outside' : List Nat} {brings : List Value} (hin : h.InOrder)
    (hk : h.Kept outside) (ha : h.Acyclic) (hk' : h'.Kept outside') (ha' : h'.Acyclic)
    (hcells : ∀ c ∈ h'.cells, h.object? c.object.address = some c.object ∨
      c.object.address = h.next ∧ c.object.members = brings)
    (hknown : ∀ v ∈ brings, h.Knows v)
    (hnew : h.Orders (.set brings)) : h'.InOrder := by
  have hl : h.Later h' fun _ => True := by
    refine later_of_cells (hk.sound ha) (hk'.sound ha') fun c hc => (hcells c hc).imp_right ?_
    exact fun hnext hmem => Nat.lt_irrefl _ (hnext.1 ▸ hk.lt_next hmem)
  intro ms hm
  obtain ⟨c, hc, hmc⟩ := mem_sets.1 hm
  obtain hold | ⟨-, hmembers⟩ := hcells c hc
  · have hmold := mem_sets_of_object hold hmc
    refine hl.pairwise (fun v hv o ho => ?_) (hin ms hmold)
    exact ⟨hk.knows hmold hv o ho, hk'.knows hm hv o ho, trivial⟩
  · refine hl.pairwise (fun v hv o ho => ?_) (hnew ms ?_)
    · have hsub := Object.objectsOf_subset hmc (Value.mem_objectsOf.2 ⟨v, hv, ho⟩)
      rw [hmembers] at hsub
      obtain ⟨w, hw, ho'⟩ := Value.mem_objectsOf.1 hsub
      exact ⟨hknown w hw o ho', hk'.knows hm hv o ho, trivial⟩
    · exact hmembers ▸ Object.mem_sets hmc

section Puts

open Handles (Puts)

variable {outside' : List Nat} {members now : List Member}

lemma object?_put (hp : Puts h a v members now h') :
    h'.object? a = some (.set a (now.map Member.value)) := by
  have hmem : a ∈ h.addresses := by
    by_contra hn
    have ho := hp.object
    rw [object?, cell?_eq_none_iff.2 hn] at ho
    cases ho
  obtain ⟨c, hc, hca, hnow⟩ := exists_object (hp.addresses.symm ▸ hmem)
  obtain hother | hset := hp.cells c hc
  · exact absurd hca hother.1
  · rw [hnow, hset]

lemma members_put_of_ne (hp : Puts h a v members now h') (hb : b ≠ a) :
    h'.members b = h.members b := by
  rw [members_eq, members_eq]
  by_cases hmem : b ∈ h'.addresses
  · obtain ⟨c, hc, rfl, hnow⟩ := exists_object hmem
    obtain ⟨-, hold⟩ | hset := hp.cells c hc
    · rw [hold, hnow]
    · exact absurd (congrArg Object.address hset) hb
  · have hmem' : b ∉ h.addresses := hp.addresses ▸ hmem
    rw [object?, object?, cell?_eq_none_iff.2 hmem, cell?_eq_none_iff.2 hmem']

lemma later_put (hs : h.Sound) (hs' : h'.Sound) (hp : Puts h a v members now h') :
    h.Later h' fun b => ¬Relation.ReflTransGen h'.Holds b a := by
  have hne {b : Nat} (hb : ¬Relation.ReflTransGen h'.Holds b a) : b ≠ a := by
    rintro rfl
    exact hb .refl
  refine ⟨hs, hs', fun {b c} hb hbc hca => ?_, fun hb _ _ => members_put_of_ne hp (hne hb)⟩
  have hbc' : h'.Holds b c := by
    rw [Holds, members_put_of_ne hp (hne hb)]
    exact hbc
  exact hb (.head hbc' hca)

/-- What a set holds does not lead back to it. -/
lemma Acyclic.not_reflTransGen (ha : h.Acyclic) (ho : o ∈ Value.objectsOf (h.members a)) :
    ¬Relation.ReflTransGen h.Holds o.address a := by
  refine fun ht => ha a (.head' ?_ ht)
  rw [Holds, Value.handlesOf_eq]
  exact List.mem_map_of_mem ho

lemma mem_put (hp : Puts h a v members now h') {w : Value} :
    w ∈ now.map Member.value ↔ w = v ∨ w ∈ members.map Member.value := by
  obtain ⟨smaller, larger, hl, hnow⟩ := Member.exists_append_of_insert hp.insert
  rw [hl, hnow, List.mem_append, List.mem_cons, List.mem_append, or_left_comm]

/-- A value that changes no comparison of two members of one set leaves all sets in order. -/
lemma InOrder.put (hin : h.InOrder) (hk : h.Kept outside) (hs : h.Sound) (ht : h.TypesApart)
    (hk' : h'.Kept outside') (hs' : h'.Sound) (hp : Puts h a v members now h')
    (hv : h.Knows v) (hordered : h.Orders v) (hu : h.Undisturbed h') : h'.InOrder := by
  have hmembers : members.map Member.value ∈ h.sets :=
    mem_sets_of_object hp.object List.mem_cons_self
  have hknown : ∀ w ∈ now.map Member.value, h.Knows w := by
    intro w hw
    obtain rfl | hw := (mem_put hp).1 hw
    · exact hv
    · exact hk.knows hmembers hw
  intro ns hn
  obtain ⟨c, hc, hnc⟩ := mem_sets.1 hn
  obtain ⟨-, hold⟩ | hset := hp.cells c hc
  · have hnold := mem_sets_of_object hold hnc
    exact (hin ns hnold).imp_of_mem fun hx hy hlt => (hu ns hnold _ hx _ hy).trans hlt
  · -- No member of the set leads back to it, and so none is seen otherwise than before.
    rw [hset] at hnc
    refine (later_put hs hs' hp).pairwise (fun w hw o ho => ?_) ?_
    · have hmem : o ∈ Value.objectsOf (now.map Member.value) :=
        Object.objectsOf_subset hnc (Value.mem_objectsOf.2 ⟨w, hw, ho⟩)
      obtain ⟨u, hu, ho'⟩ := Value.mem_objectsOf.1 hmem
      refine ⟨hknown u hu o ho', hk'.knows hn hw o ho, hs'.acyclic.not_reflTransGen ?_⟩
      rwa [members_eq, object?_put hp]
    · obtain rfl | hnested := List.mem_cons.1 hnc
      · exact hs.pairwise_insert ht hv (fun w => hk.knows hmembers) (hin _ hmembers) hp.insert
      · obtain ⟨w, hw, hnw⟩ := Value.mem_setsOf.1 hnested
        obtain rfl | hw := (mem_put hp).1 hw
        · exact hordered ns hnw
        · refine hin ns (mem_sets_of_object hp.object (List.mem_cons_of_mem _ ?_))
          exact Value.mem_setsOf.2 ⟨w, hw, hnw⟩

lemma exists_sublist_put (hn : h.addresses.Nodup) (hp : Puts h a v members now h')
    (hm : ms ∈ h.sets) : ∃ ns ∈ h'.sets, ms.Sublist ns := by
  obtain ⟨c, hc, hmc⟩ := mem_sets.1 hm
  have ho := object?_of_mem hn hc
  by_cases hca : c.object.address = a
  · rw [hca, hp.object] at ho
    rw [← Option.some.inj ho] at hmc
    obtain rfl | hnested := List.mem_cons.1 hmc
    · obtain ⟨smaller, larger, hl, hnow⟩ := Member.exists_append_of_insert hp.insert
      refine ⟨now.map Member.value, mem_sets_of_object (object?_put hp) List.mem_cons_self, ?_⟩
      rw [hl, hnow]
      exact (List.sublist_cons_self v larger).append_left smaller
    · obtain ⟨w, hw, hmw⟩ := Value.mem_setsOf.1 hnested
      have hw' : w ∈ now.map Member.value := (mem_put hp).2 (.inr hw)
      refine ⟨ms, mem_sets_of_object (object?_put hp) (List.mem_cons_of_mem _ ?_), .refl ms⟩
      exact Value.mem_setsOf.2 ⟨w, hw', hmw⟩
  · have hmem : c.object.address ∈ h'.addresses :=
      hp.addresses.symm ▸ List.mem_map_of_mem (f := fun c => c.object.address) hc
    obtain ⟨d, hd, hda, -⟩ := exists_object hmem
    obtain ⟨-, hold⟩ | hset := hp.cells d hd
    · rw [hda, ho] at hold
      exact ⟨ms, mem_sets.2 ⟨d, hd, Option.some.inj hold ▸ hmc⟩, .refl ms⟩
    · rw [hset] at hda
      exact absurd hda.symm hca

lemma InOrder.undisturbed (hin : h.InOrder) (hin' : h'.InOrder) (hk : h.Kept outside) (hs : h.Sound)
    (hk' : h'.Kept outside') (hs' : h'.Sound)
    (hsub : ∀ ms ∈ h.sets, ∃ ns ∈ h'.sets, ms.Sublist ns) : h.Undisturbed h' := by
  intro ms hm
  obtain ⟨ns, hn, hmn⟩ := hsub ms hm
  have hlt := hin ms hm
  have hlt' : ms.Pairwise fun v w => h'.compare v w = .lt := (hin' ns hn).sublist hmn
  have hknown {v : Value} (hv : v ∈ ms) : h.Knows v ∧ h'.Knows v :=
    ⟨hk.knows hm hv, hk'.knows hn (hmn.subset hv)⟩
  refine List.Pairwise.forall_of_forall_of_flip (fun v hv => ?_) ?_ ?_
  · rw [hs.compare_self (hknown hv).1, hs'.compare_self (hknown hv).2]
  · exact hlt'.imp₂ (fun v w he he' => he.trans he'.symm) hlt
  · refine (hlt'.and hlt).imp_of_mem fun {v w} hv hw hvw => ?_
    obtain ⟨hv, hv'⟩ := hknown hv
    obtain ⟨hw, hw'⟩ := hknown hw
    change h'.compare w v = h.compare w v
    rw [hs.compare_swap hw hv, hs'.compare_swap hw' hv', hvw.1, hvw.2]

/-- Nothing changes among the members of sets as long as no set holds the one that changes. -/
lemma undisturbed_put_of_not_holds (hk : h.Kept outside) (hs : h.Sound) (hk' : h'.Kept outside')
    (hs' : h'.Sound) (hp : Puts h a v members now h') (hfree : ∀ b, ¬h.Holds b a) :
    h.Undisturbed h' := by
  intro ms hm
  obtain ⟨ns, hn, hmn⟩ := exists_sublist_put hk.nodup hp hm
  have hshared : ∀ w ∈ ms, h.Shared h' (fun b => ¬Relation.ReflTransGen h'.Holds b a) w := by
    intro w hw o ho
    refine ⟨hk.knows hm hw o ho, hk'.knows hn (hmn.subset hw) o ho, fun ht => ?_⟩
    obtain he | ⟨b, -, hb⟩ := ht.cases_tail
    · obtain ⟨c, hc, hmc⟩ := mem_sets.1 hm
      refine hfree c.object.address ?_
      rw [Holds, members_eq, object?_of_mem hk.nodup hc, Value.handlesOf_eq]
      refine List.mem_map.2 ⟨o, ?_, he.symm⟩
      exact Object.objectsOf_subset hmc (Value.mem_objectsOf.2 ⟨w, hw, ho⟩)
    · by_cases hba : b = a
      · exact hs'.acyclic a (.single (hba ▸ hb))
      · rw [Holds, members_put_of_ne hp hba] at hb
        exact hfree b hb
  exact fun x hx y hy => (later_put hs hs' hp).compare (hshared x hx) (hshared y hy)

end Puts

lemma Remains.undisturbed (hr : h.Remains h') (haddresses : h'.addresses = h.addresses)
    (hk : h.Kept outside) (hs : h.Sound) (hs' : h'.Sound) : h.Undisturbed h' := by
  have hl := later_of_cells hs hs' fun c hc => .inl (hr c hc)
  intro ms hm x hx y hy
  have hshared : ∀ w ∈ ms, h.Shared h' (fun _ => True) w := by
    intro w hw o ho
    have hrefers := hk.knows hm hw o ho
    exact ⟨hrefers, hr.refers hrefers (haddresses.symm ▸ hrefers.alive), trivial⟩
  exact hl.compare (hshared x hx) (hshared y hy)

lemma InOrder.remains (hin : h.InOrder) (hr : h.Remains h') (hu : h.Undisturbed h') :
    h'.InOrder := by
  intro ms hm
  obtain ⟨c, hc, hmc⟩ := mem_sets.1 hm
  have hmold := mem_sets_of_object (hr c hc) hmc
  exact (hin ms hmold).imp_of_mem fun hx hy hlt => (hu ms hmold _ hx _ hy).trans hlt

end Heap

namespace Handles

open Heap

/-- The sets that a call passes on are in order. -/
def Call.Orders (h : Heap) : Call → Prop
  | .set _ items => ∀ v ∈ items, h.Orders (v.mapObjects Object.bare)
  | .insert _ v => h.Orders (v.mapObjects Object.bare)
  | _ => True

/-- A history of calls that name live objects and pass on sets in order, in which no set comes to
hold itself and names tell the types of all objects apart. -/
structure Lawful (close : Nat → Except Error Unit) (calls : List Call) : Prop where
  names (before : List Call) (call : Call) : before ++ [call] <+: calls →
    call.Names (after close before).heap
  orders (before : List Call) (call : Call) : before ++ [call] <+: calls →
    call.Orders (after close before).heap
  acyclic (before : List Call) : before <+: calls → (after close before).heap.Acyclic
  types (before : List Call) : before <+: calls → (after close before).heap.TypesApart

variable {close : Nat → Except Error Unit} {calls before : List Call} {call : Call}
  {s : Handles}

lemma Call.knows_brings {h : Heap} (hn : call.Names h) : ∀ v ∈ call.brings h, h.Knows v := by
  cases call with
  | set label items =>
    intro m hm
    obtain ⟨v, hv, rfl⟩ := mem_collect hm
    exact hn v hv
  | _ => nofun

lemma Call.orders_brings {h : Heap} (hs : h.Sound) (ht : h.TypesApart) (hn : call.Names h)
    (ho : call.Orders h) : h.Orders (.set (call.brings h)) := by
  have hnil : h.Orders (.set []) := List.forall_mem_singleton.2 .nil
  cases call with
  | set label items =>
    refine List.forall_mem_cons.2 ⟨hs.pairwise_collect ht hn, fun ms hm => ?_⟩
    obtain ⟨m, hm, hms⟩ := Value.mem_setsOf.1 hm
    obtain ⟨v, hv, rfl⟩ := mem_collect hm
    exact ho v hv ms hms
  | _ => exact hnil

/-- What a call must leave alone to leave all sets in order. -/
lemma Kept.inOrder_perform_iff (hk : s.Kept []) (ha : s.heap.Acyclic) (ht : s.heap.TypesApart)
    (ha' : (s.perform close call).heap.Acyclic) (hn : call.Names s.heap) (ho : call.Orders s.heap)
    (hin : s.heap.InOrder) : (s.perform close call).heap.InOrder ↔
      ∀ label v, call = .insert label v → s.heap.Undisturbed (s.perform close call).heap := by
  obtain ⟨hk', hchanges⟩ := hk.perform close call hn
  have hs := hk.heap.sound ha
  have hs' := hk'.heap.sound ha'
  generalize s.perform close call = t at hk' hchanges ha' hs'
  cases hchanges with
  | other hcall hcells =>
    refine iff_of_true ?_ fun label v he => absurd he (hcall label v)
    exact hin.other hk.heap ha hk'.heap ha' hcells (call.knows_brings hn)
      (call.orders_brings hs ht hn ho)
  | refused hr haddresses =>
    have hu := hr.undisturbed haddresses hk.heap hs hs'
    exact iff_of_true (hin.remains hr hu) fun _ _ _ => hu
  | put hp =>
    constructor
    · intro hin' _ _ _
      exact hin.undisturbed hin' hk.heap hs hk'.heap hs' fun ms =>
        exists_sublist_put hk.heap.nodup hp
    · intro hu
      exact hin.put hk.heap hs ht hk'.heap hs' hp hn ho (hu _ _ rfl)

lemma Kept.undisturbed_perform {label : String} {v : Value} (hk : s.Kept []) (ha : s.heap.Acyclic)
    (ha' : (s.perform close (.insert label v)).heap.Acyclic)
    (hn : (Call.insert label v).Names s.heap)
    (hfree : ∀ a b, (s.perform close (.insert label v)).heap.members a ≠ s.heap.members a →
      ¬s.heap.Holds b a) : s.heap.Undisturbed (s.perform close (.insert label v)).heap := by
  obtain ⟨hk', hchanges⟩ := hk.perform close (.insert label v) hn
  have hs := hk.heap.sound ha
  have hs' := hk'.heap.sound ha'
  generalize s.perform close (.insert label v) = t at hk' hchanges ha' hs' hfree
  cases hchanges with
  | other hcall => exact absurd rfl (hcall label v)
  | refused hr haddresses => exact hr.undisturbed haddresses hk.heap hs hs'
  | @put _ _ _ a members now hp =>
    refine undisturbed_put_of_not_holds hk.heap hs hk'.heap hs' hp fun b => hfree a b ?_
    obtain ⟨smaller, larger, hl, hnow⟩ := Member.exists_append_of_insert hp.insert
    intro he
    rw [members_eq, members_eq, object?_put hp, hp.object, hl, hnow] at he
    have hlength := congrArg List.length he
    simp [Object.members] at hlength

namespace Lawful

lemma nil : Lawful close [] where
  names _ _ hb := absurd (List.prefix_nil.1 hb) (List.append_ne_nil_of_right_ne_nil _ nofun)
  orders _ _ hb := absurd (List.prefix_nil.1 hb) (List.append_ne_nil_of_right_ne_nil _ nofun)
  acyclic before hb := by
    obtain rfl := List.prefix_nil.1 hb
    exact acyclic_of_cells nofun
  types before hb := by
    obtain rfl := List.prefix_nil.1 hb
    exact nofun

lemma concat (hl : Lawful close calls) (hn : call.Names (after close calls).heap)
    (ho : call.Orders (after close calls).heap)
    (ha : (after close (calls ++ [call])).heap.Acyclic)
    (ht : (after close (calls ++ [call])).heap.TypesApart) : Lawful close (calls ++ [call]) where
  names := forall_concat_prefix_iff.2 ⟨hl.names, hn⟩
  orders := forall_concat_prefix_iff.2 ⟨hl.orders, ho⟩
  acyclic before hb := by
    obtain rfl | hb := List.prefix_concat_iff.1 hb
    · exact ha
    · exact hl.acyclic before hb
  types before hb := by
    obtain rfl | hb := List.prefix_concat_iff.1 hb
    · exact ht
    · exact hl.types before hb

lemma kept (hl : Lawful close calls) (hb : before <+: calls) : (after close before).Kept [] :=
  kept_after close hl.names hb

end Lawful

/-- All sets are in order after all calls exactly if no value that is passed on to a set changes how
two members of one set compare, as when no set holds the one that it changes. Where all sets are in
order, those with the same members compare, hash and dump alike. -/
theorem sets_in_order_iff (hl : Lawful close calls) :
    ((∀ before, before <+: calls → (after close before).heap.InOrder) ↔
      ∀ before label v, before ++ [.insert label v] <+: calls →
        (after close before).heap.Undisturbed
          (after close (before ++ [.insert label v])).heap) ∧
      ((∀ before label v, before ++ [.insert label v] <+: calls → ∀ a b,
        (after close (before ++ [.insert label v])).heap.members a ≠
            (after close before).heap.members a →
          ¬(after close before).heap.Holds b a) →
        ∀ before, before <+: calls → (after close before).heap.InOrder) ∧
      ∀ before, before <+: calls → (after close before).heap.InOrder →
        (after close before).heap.Alike := by
  have hiff : (∀ before, before <+: calls → (after close before).heap.InOrder) ↔
      ∀ before label v, before ++ [.insert label v] <+: calls →
        (after close before).heap.Undisturbed
          (after close (before ++ [.insert label v])).heap := by
    constructor
    · intro hin before label v hb
      have hb' : before <+: calls := (List.prefix_append before _).trans hb
      have ha' := hl.acyclic _ hb
      have hin' := hin _ hb
      rw [after_concat] at ha' hin' ⊢
      exact ((hl.kept hb').inOrder_perform_iff (hl.acyclic _ hb') (hl.types _ hb') ha'
        (hl.names _ _ hb) (hl.orders _ _ hb) (hin _ hb')).1 hin' _ _ rfl
    · intro hu before
      induction before using List.reverseRecOn with
      | nil => exact fun _ => nofun
      | append_singleton before call ih =>
        intro hb
        have hb' : before <+: calls := (List.prefix_append before _).trans hb
        have ha' := hl.acyclic _ hb
        rw [after_concat] at ha' ⊢
        refine ((hl.kept hb').inOrder_perform_iff (hl.acyclic _ hb') (hl.types _ hb') ha'
          (hl.names _ _ hb) (hl.orders _ _ hb) (ih hb')).2 fun label v he => ?_
        subst he
        have := hu before label v hb
        rwa [after_concat] at this
  refine ⟨hiff, fun hfree => hiff.2 fun before label v hb => ?_, fun before hb hin => ?_⟩
  · have hb' : before <+: calls := (List.prefix_append before _).trans hb
    have ha' := hl.acyclic _ hb
    have hfree' := hfree before label v hb
    rw [after_concat] at ha' hfree' ⊢
    exact (hl.kept hb').undisturbed_perform (hl.acyclic _ hb') ha' (hl.names _ _ hb) hfree'
  · exact hin.alike (hl.kept hb).heap (hl.acyclic _ hb) (hl.types _ hb)

/-- Two sets and the set of both. -/
lemma lawful_set_of_sets :
    let close (_ : Nat) : Except Error Unit := .ok ()
    let a : Value := .object (.set 0 [])
    let b : Value := .object (.set 1 [])
    let calls : List Call := [.set "a" [], .set "b" [.int 1], .set "c" [a, b]]
    Lawful close calls ∧ (after close calls).heap =
      ⟨[⟨.set 0 [], [], 2, []⟩, ⟨.set 1 [.int 1], [0], 2, []⟩, ⟨.set 2 [a, b], [0, 0], 1, []⟩],
        3, []⟩ := by
  refine ⟨?_, rfl⟩
  have hone : Lawful (fun _ => .ok ()) [.set "a" []] :=
    Lawful.nil.concat nofun nofun (acyclic_of_cells (by decide)) (by decide)
  have htwo : Lawful (fun _ => .ok ()) [.set "a" [], .set "b" [.int 1]] :=
    hone.concat (List.forall_mem_singleton.2 nofun) (List.forall_mem_singleton.2 nofun)
      (acyclic_of_cells (by decide)) (by decide)
  refine htwo.concat ?_ ?_ (acyclic_of_cells (by decide)) (by decide)
  · exact List.forall_mem_cons.2 ⟨List.forall_mem_singleton.2 rfl,
      List.forall_mem_singleton.2 (List.forall_mem_singleton.2 rfl)⟩
  · exact List.forall_mem_cons.2 ⟨nofun, List.forall_mem_singleton.2 nofun⟩

/-- A set of two sets, of which one is given the value 0: it still comes before the other. -/
theorem sets_in_order_iff_smaller_member :
    let close (_ : Nat) : Except Error Unit := .ok ()
    let a : Value := .object (.set 0 [])
    let b : Value := .object (.set 1 [])
    let calls : List Call :=
      [.set "a" [], .set "b" [.int 1], .set "c" [a, b], .insert "a" (.int 0)]
    Lawful close calls ∧ (∀ before, before <+: calls → (after close before).heap.InOrder) ∧
      (after close calls).heap.Alike := by
  have hcalls :
      let a : Value := .object (.set 0 [])
      let b : Value := .object (.set 1 [])
      (after (fun _ => .ok ())
        [.set "a" [], .set "b" [.int 1], .set "c" [a, b], .insert "a" (.int 0)]).heap =
      ⟨[⟨.set 0 [.int 0], [0], 2, []⟩, ⟨.set 1 [.int 1], [0], 2, []⟩,
        ⟨.set 2 [a, b], [0, 0], 1, []⟩], 3, []⟩ := rfl
  intro close a b calls
  let made : List Call := [.set "a" [], .set "b" [.int 1], .set "c" [a, b]]
  obtain ⟨hlmade, hmade⟩ := lawful_set_of_sets
  have hl : Lawful close calls :=
    hlmade.concat nofun nofun (acyclic_of_cells (by decide)) (by decide)
  have hsame : (after close made).heap.Undisturbed (after close calls).heap := by
    rw [hmade, hcalls]
    unfold Heap.Undisturbed
    decide
  have hin : ∀ before, before <+: calls → (after close before).heap.InOrder := by
    refine (sets_in_order_iff hl).1.2 fun before label v hb => ?_
    obtain he | hb := List.prefix_concat_iff.1
      (show before ++ [.insert label v] <+: made ++ [.insert "a" (.int 0)] from hb)
    · obtain ⟨rfl, hcall⟩ := List.append_inj' he rfl
      rw [hcall]
      exact hsame
    · have hmem := hb.subset (List.mem_append_right before (List.mem_singleton_self _))
      simp [made] at hmem
  exact ⟨hl, hin, (sets_in_order_iff hl).2.2 calls List.prefix_rfl (hin calls List.prefix_rfl)⟩

/-- A set of two sets, of which one is given the value 2: it comes behind the other now, but not in
the set of both. A new set of both compares otherwise. -/
theorem shared_set_out_of_order :
    let close (_ : Nat) : Except Error Unit := .ok ()
    let a : Value := .object (.set 0 [])
    let b : Value := .object (.set 1 [])
    let calls : List Call :=
      [.set "a" [], .set "b" [.int 1], .set "c" [a, b], .insert "a" (.int 2)]
    Lawful close (calls ++ [.set "d" [a, b]]) ∧ ¬(after close calls).heap.InOrder ∧
      ¬(after close (calls ++ [.set "d" [a, b]])).heap.Alike := by
  have hcalls :
      let a : Value := .object (.set 0 [])
      let b : Value := .object (.set 1 [])
      (after (fun _ => .ok ())
        [.set "a" [], .set "b" [.int 1], .set "c" [a, b], .insert "a" (.int 2)]).heap =
      ⟨[⟨.set 0 [.int 2], [0], 2, []⟩, ⟨.set 1 [.int 1], [0], 2, []⟩,
        ⟨.set 2 [a, b], [0, 0], 1, []⟩], 3, []⟩ := rfl
  have hmore :
      let a : Value := .object (.set 0 [])
      let b : Value := .object (.set 1 [])
      (after (fun _ => .ok ()) ([.set "a" [], .set "b" [.int 1], .set "c" [a, b],
        .insert "a" (.int 2)] ++ [.set "d" [a, b]])).heap =
      ⟨[⟨.set 0 [.int 2], [0], 3, []⟩, ⟨.set 1 [.int 1], [0], 3, []⟩,
        ⟨.set 2 [a, b], [0, 0], 1, []⟩, ⟨.set 3 [b, a], [0, 0], 1, []⟩], 4, []⟩ := rfl
  intro close a b calls
  have hfour : Lawful close calls :=
    lawful_set_of_sets.1.concat nofun nofun (acyclic_of_cells (by decide)) (by decide)
  refine ⟨hfour.concat ?_ ?_ (acyclic_of_cells (by decide)) (by decide), fun hin => ?_,
    fun halike => ?_⟩
  · rw [hcalls]
    exact List.forall_mem_cons.2 ⟨List.forall_mem_singleton.2 rfl,
      List.forall_mem_singleton.2 (List.forall_mem_singleton.2 rfl)⟩
  · exact List.forall_mem_cons.2 ⟨nofun, List.forall_mem_singleton.2 nofun⟩
  · rw [hcalls] at hin
    have hlt := List.pairwise_pair.1 (hin [a, b] (.tail _ (.tail _ (.head _))))
    cases hlt
  · rw [hmore] at halike
    have hsame := halike.objects (a := 2) (b := 3) rfl rfl (by
      unfold Heap.SameMembers
      decide)
    cases hsame.1

end Handles

end TransactionEngine
