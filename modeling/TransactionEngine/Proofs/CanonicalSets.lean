import Mathlib.Data.List.Forall2
import Mathlib.Data.List.Induction
import TransactionEngine.Proofs.EqualValues
import TransactionEngine.Proofs.MemberSearch

/-!
# Sets are canonical

A set is made by putting values in one after the other, in their places and each no more than once.
In an order that is transitive its members are strictly increasing, which leaves one way to list
values up to equality. So two lists that hold the same values, in any order and as often as they may,
make sets that nothing tells apart, as long as names tell the types of all objects apart.
-/

namespace TransactionEngine.Value

/-- Each value of the one list is equal to a value of the other. -/
def SameMembers (vs ws : List Value) : Prop :=
  (∀ v ∈ vs, ∃ w ∈ ws, (v == w) = true) ∧ ∀ w ∈ ws, ∃ v ∈ vs, (w == v) = true

/-- The members of a set as a set keeps them. -/
def Increasing (members : List Value) : Prop :=
  members.Pairwise fun v w => v.compare w = .lt

variable {order other : Value → Value → Ordering} {v w : Value}
  {vs ws items members others : List Value}

lemma membersBy_concat (order : Value → Value → Ordering) (items : List Value) (v : Value) :
    membersBy order (items ++ [v]) =
      (insertMemberBy order v (membersBy order items)).getD (membersBy order items) := by
  rw [membersBy, List.foldl_append]
  rfl

lemma getD_insertMemberBy_subset (order : Value → Value → Ordering) (v : Value)
    (members : List Value) : (insertMemberBy order v members).getD members ⊆ v :: members := by
  induction members with
  | nil => exact List.Subset.refl _
  | cons w ws ih =>
    rw [insertMemberBy]
    cases order v w with
    | lt => exact List.Subset.refl _
    | eq => exact List.subset_cons_self v _
    | gt =>
      cases hi : insertMemberBy order v ws with
      | none => exact List.subset_cons_self v _
      | some now =>
        rw [hi] at ih
        refine List.cons_subset.2 ⟨List.mem_cons_of_mem v List.mem_cons_self, ?_⟩
        exact List.Subset.trans ih (List.cons_subset_cons v (List.subset_cons_self w ws))

lemma membersBy_subset (order : Value → Value → Ordering) (items : List Value) :
    membersBy order items ⊆ items := by
  induction items using List.reverseRecOn with
  | nil => exact List.Subset.refl _
  | append_singleton items v ih =>
    rw [membersBy_concat]
    refine List.Subset.trans (getD_insertMemberBy_subset order v _) (List.cons_subset.2 ⟨?_, ?_⟩)
    · exact List.mem_append_right _ (List.mem_singleton_self v)
    · exact List.subset_append_of_subset_left _ ih

lemma insertMemberBy_congr (h : ∀ m ∈ members, order v m = other v m) :
    insertMemberBy order v members = insertMemberBy other v members := by
  induction members with
  | nil => rfl
  | cons w ws ih =>
    rw [List.forall_mem_cons] at h
    rw [insertMemberBy, insertMemberBy, h.1, ih h.2]

lemma membersBy_congr (h : ∀ v ∈ items, ∀ w ∈ items, order v w = other v w) :
    membersBy order items = membersBy other items := by
  induction items using List.reverseRecOn with
  | nil => rfl
  | append_singleton items v ih =>
    have hitems := ih fun v hv w hw => h v (List.mem_append_left _ hv) w (List.mem_append_left _ hw)
    have hv : ∀ m ∈ membersBy other items, order v m = other v m := fun m hm =>
      h v (List.mem_append_right _ (List.mem_singleton_self v)) m
        (List.mem_append_left _ (membersBy_subset other items hm))
    rw [membersBy_concat, membersBy_concat, hitems, insertMemberBy_congr hv]

lemma compareMembers_eq_of_forall₂ (h : List.Forall₂ (fun v w => v.compare w = .eq) vs ws) :
    compareMembers vs ws = .eq := by
  induction h with
  | nil => rfl
  | cons hhead _ ih =>
    rw [compareMembers, hhead, ih]
    rfl

/-- Sets with equal members are told apart by nothing, wherever they are. -/
lemma set_alike (hp : PlacesApart (vs ++ ws)) (h : compareMembers vs ws = .eq) (a b : Nat) :
    (Value.set vs).content = (Value.set ws).content ∧
      (Object.set a vs).hashOwn = (Object.set b ws).hashOwn ∧
      (Object.set a vs).dump = (Object.set b ws).dump := by
  have hparts := forall_partsOf_of_subset hp (List.subset_append_left vs ws)
    (List.subset_append_right vs ws)
  have hc : contents vs = contents ws := (compareMembers_eq_iff vs ws hparts).1 h
  have hjson : toJsons vs = toJsons ws := by rw [← toJsons_contents, hc, toJsons_contents]
  refine ⟨congrArg Value.set hc, ?_, ?_⟩
  · rw [Object.hashOwn, Object.hashOwn, ← hashMembers_contents, hc, hashMembers_contents]
  · rw [Object.dump, Object.dump, Object.toJson, Object.toJson, hjson]
    all_goals rintro _ _ ⟨⟩

/-! ### In a transitive order -/

section Transitive

variable [Std.TransCmp order]

variable (order) in
lemma pairwise_membersBy (items : List Value) :
    (membersBy order items).Pairwise fun v w => order v w = .lt := by
  induction items using List.reverseRecOn with
  | nil => exact .nil
  | append_singleton items v ih =>
    rw [membersBy_concat]
    have hp := placed_insertMemberBy (arranged_of_pairwise v ih)
    cases hi : insertMemberBy order v (membersBy order items) with
    | none => exact ih
    | some now =>
      rw [hi] at hp
      exact hp.pairwise (fun m _ => Std.OrientedCmp.lt_of_gt) ih

variable (order) in
lemma exists_mem_membersBy (items : List Value) :
    ∀ v ∈ items, ∃ m ∈ membersBy order items, order v m = .eq := by
  induction items using List.reverseRecOn with
  | nil => exact nofun
  | append_singleton items v ih =>
    rw [membersBy_concat]
    have hp := placed_insertMemberBy (arranged_of_pairwise v (pairwise_membersBy order items))
    cases hi : insertMemberBy order v (membersBy order items) with
    | none =>
      have hmet := hp.eq_none_iff.1 hi
      exact List.forall_mem_append.2 ⟨ih, List.forall_mem_singleton.2 hmet⟩
    | some now =>
      rw [hi] at hp
      refine List.forall_mem_append.2 ⟨fun u hu => ?_, List.forall_mem_singleton.2 ?_⟩
      · obtain ⟨m, hm, he⟩ := ih u hu
        exact ⟨m, hp.mem_iff.2 (.inr hm), he⟩
      · exact ⟨v, hp.mem_iff.2 (.inl rfl), Std.ReflCmp.compare_self⟩

/-- The first of increasing values is equal to none of the others. -/
lemma exists_mem_tail (h : (v :: vs).Pairwise fun v w => order v w = .lt) (he : order v w = .eq)
    (hmem : ∀ x ∈ v :: vs, ∃ y ∈ w :: ws, order x y = .eq) :
    ∀ x ∈ vs, ∃ y ∈ ws, order x y = .eq := by
  intro x hx
  obtain ⟨y, hy, hxy⟩ := hmem x (List.mem_cons_of_mem v hx)
  obtain rfl | hy := List.mem_cons.1 hy
  · have hlt : order v x = .lt := (List.pairwise_cons.1 h).1 x hx
    rw [Std.TransCmp.congr_left he, Std.OrientedCmp.eq_symm hxy] at hlt
    cases hlt
  · exact ⟨y, hy, hxy⟩

lemma order_heads (hvs : (v :: vs).Pairwise fun v w => order v w = .lt)
    (hws : (w :: ws).Pairwise fun v w => order v w = .lt)
    (h : ∀ x ∈ v :: vs, ∃ y ∈ w :: ws, order x y = .eq)
    (h' : ∀ y ∈ w :: ws, ∃ x ∈ v :: vs, order y x = .eq) : order v w = .eq := by
  obtain ⟨y, hy, hvy⟩ := h v List.mem_cons_self
  obtain ⟨x, hx, hwx⟩ := h' w List.mem_cons_self
  obtain rfl | hy := List.mem_cons.1 hy
  · exact hvy
  obtain rfl | hx := List.mem_cons.1 hx
  · exact Std.OrientedCmp.eq_symm hwx
  -- Each head would be smaller than the other.
  have hvx : order v x = .lt := (List.pairwise_cons.1 hvs).1 x hx
  have hwy : order w y = .lt := (List.pairwise_cons.1 hws).1 y hy
  have hvw : order v w = .lt := Std.TransCmp.lt_of_lt_of_eq hvx (Std.OrientedCmp.eq_symm hwx)
  rw [Std.TransCmp.lt_trans hvw hwy] at hvy
  cases hvy

/-- There is one list in increasing order with given members. -/
theorem forall₂_of_pairwise (hvs : vs.Pairwise fun v w => order v w = .lt)
    (hws : ws.Pairwise fun v w => order v w = .lt) (h : ∀ v ∈ vs, ∃ w ∈ ws, order v w = .eq)
    (h' : ∀ w ∈ ws, ∃ v ∈ vs, order w v = .eq) :
    List.Forall₂ (fun v w => order v w = .eq) vs ws := by
  induction vs generalizing ws with
  | nil =>
    cases ws with
    | nil => exact .nil
    | cons w ws =>
      obtain ⟨v, hv, -⟩ := h' w List.mem_cons_self
      cases hv
  | cons v vs ih =>
    cases ws with
    | nil =>
      obtain ⟨w, hw, -⟩ := h v List.mem_cons_self
      cases hw
    | cons w ws =>
      have hhead := order_heads hvs hws h h'
      exact .cons hhead (ih (List.pairwise_cons.1 hvs).2 (List.pairwise_cons.1 hws).2
        (exists_mem_tail hvs hhead h) (exists_mem_tail hws (Std.OrientedCmp.eq_symm hhead) h'))

lemma countP_order_eq_one (h : members.Pairwise fun v w => order v w = .lt)
    (hm : ∃ m ∈ members, order v m = .eq) : members.countP (order v · == .eq) = 1 := by
  induction members with
  | nil => obtain ⟨m, hm, -⟩ := hm; cases hm
  | cons m ms ih =>
    obtain ⟨hlt, hms⟩ := List.pairwise_cons.1 h
    rw [List.countP_cons]
    by_cases he : order v m = .eq
    · have hnone : ms.countP (order v · == .eq) = 0 := by
        refine List.countP_eq_zero.2 fun n hn => ?_
        rw [Std.TransCmp.congr_left he, hlt n hn]
        decide
      rw [hnone, if_pos (beq_iff_eq.2 he)]
    · rw [if_neg (by rwa [beq_iff_eq]), Nat.add_zero]
      obtain ⟨n, hn, hvn⟩ := hm
      obtain rfl | hn := List.mem_cons.1 hn
      · exact absurd hvn he
      · exact ih hms ⟨n, hn, hvn⟩

end Transitive

namespace TypesApart

lemma pairwise_keyOrder (ht : TypesApart members) (h : Increasing members) :
    members.Pairwise fun v w => v.keyOrder w = .lt :=
  h.imp_of_mem fun hv hw hlt => by rwa [← ht.compare_eq hv hw]

lemma arranged (ht : TypesApart (v :: members)) (h : Increasing members) :
    Arranged v.compare members := by
  have hv {m : Value} (hm : m ∈ members) : v.compare m = v.keyOrder m :=
    ht.compare_eq List.mem_cons_self (List.mem_cons_of_mem v hm)
  have hkeys := (ht.mono (List.subset_cons_self v members)).pairwise_keyOrder h
  refine (arranged_of_pairwise v hkeys).imp_of_mem fun hm hn hmn => ?_
  rwa [hv hm, hv hn]

lemma membersOf_eq (ht : TypesApart items) : membersOf items = membersBy keyOrder items :=
  membersBy_congr fun _ hv _ hw => ht.compare_eq hv hw

lemma increasing_membersOf (ht : TypesApart items) : Increasing (membersOf items) := by
  have hsub := membersBy_subset keyOrder items
  rw [ht.membersOf_eq]
  exact (pairwise_membersBy keyOrder items).imp_of_mem fun hv hw hlt => by
    rwa [ht.compare_eq (hsub hv) (hsub hw)]

lemma exists_mem_membersOf (ht : TypesApart items) (hv : v ∈ items) :
    ∃ m ∈ membersOf items, v.compare m = .eq := by
  rw [ht.membersOf_eq]
  obtain ⟨m, hm, he⟩ := exists_mem_membersBy keyOrder items v hv
  exact ⟨m, hm, (ht.compare_eq hv (membersBy_subset keyOrder items hm)).trans he⟩

end TypesApart

lemma sameMembers_iff : SameMembers vs ws ↔
    (∀ v ∈ vs, ∃ w ∈ ws, v.compare w = .eq) ∧ ∀ w ∈ ws, ∃ v ∈ vs, w.compare v = .eq := by
  simp only [SameMembers, beq_iff_compare]

/-- Where names tell types apart, increasing lists with the same members are equal. -/
theorem Increasing.compareMembers_eq (hvs : Increasing vs) (hws : Increasing ws)
    (ht : TypesApart (vs ++ ws)) (h : SameMembers vs ws) : compareMembers vs ws = .eq := by
  have hl {v : Value} (hv : v ∈ vs) : v ∈ vs ++ ws := List.mem_append_left ws hv
  have hr {w : Value} (hw : w ∈ ws) : w ∈ vs ++ ws := List.mem_append_right vs hw
  rw [sameMembers_iff] at h
  have hkeys : List.Forall₂ (fun v w => v.keyOrder w = .eq) vs ws := by
    refine forall₂_of_pairwise ((ht.mono (List.subset_append_left vs ws)).pairwise_keyOrder hvs)
      ((ht.mono (List.subset_append_right vs ws)).pairwise_keyOrder hws) (fun v hv => ?_)
      fun w hw => ?_
    · obtain ⟨w, hw, he⟩ := h.1 v hv
      exact ⟨w, hw, (ht.compare_eq (hl hv) (hr hw)).symm.trans he⟩
    · obtain ⟨v, hv, he⟩ := h.2 w hw
      exact ⟨v, hv, (ht.compare_eq (hr hw) (hl hv)).symm.trans he⟩
  obtain ⟨hlength, hzip⟩ := List.forall₂_iff_zip.1 hkeys
  refine compareMembers_eq_of_forall₂ (List.forall₂_iff_zip.2 ⟨hlength, fun hmem => ?_⟩)
  obtain ⟨hv, hw⟩ := List.of_mem_zip hmem
  exact (ht.compare_eq (hl hv) (hr hw)).trans (hzip hmem)

lemma SameMembers.membersOf (h : SameMembers items others) (ht : TypesApart (items ++ others)) :
    SameMembers (membersOf items) (membersOf others) := by
  have hhalf {vs ws : List Value} (ht : TypesApart (vs ++ ws))
      (h : ∀ v ∈ vs, ∃ w ∈ ws, v.compare w = .eq) :
      ∀ v ∈ Value.membersOf vs, ∃ w ∈ Value.membersOf ws, v.compare w = .eq := by
    intro v hv
    have hv := membersBy_subset _ _ hv
    obtain ⟨w, hw, hvw⟩ := h v hv
    obtain ⟨m, hm, hwm⟩ :=
      (ht.mono (List.subset_append_right vs ws)).exists_mem_membersOf hw
    have hvall := List.mem_append_left ws hv
    have hwall := List.mem_append_right vs hw
    have hmall := List.mem_append_right vs (membersBy_subset _ _ hm)
    rw [ht.compare_eq hvall hwall] at hvw
    rw [ht.compare_eq hwall hmall] at hwm
    exact ⟨m, hm, (ht.compare_eq hvall hmall).trans (Std.TransCmp.eq_trans hvw hwm)⟩
  have hback : TypesApart (others ++ items) :=
    ht.mono (List.append_subset.2 ⟨List.subset_append_right _ _, List.subset_append_left _ _⟩)
  rw [sameMembers_iff] at h ⊢
  exact ⟨hhalf ht h.1, hhalf hback h.2⟩

/-- The members of a set were put in. Where names tell the types of all objects apart, they are in
strictly increasing order, and each value that was put in is equal to exactly one of them; a further
one is put in exactly if it is equal to none, and the search by levels finds the same place for it.
Lists with the same members up to equality make sets that are equal, with one hash, one wire form and
one text. -/
theorem sets_canonical (items : List Value) :
    (setOf items).asMembers = .ok (membersOf items) ∧
      (∀ m ∈ membersOf items, ∃ v ∈ items, (m == v) = true) ∧
      (TypesApart items → Increasing (membersOf items) ∧
        ∀ v ∈ items, (membersOf items).countP (v == ·) = 1) ∧
      (∀ v, TypesApart (v :: items) →
        ((insertMemberBy Value.compare v (membersOf items)).isSome ↔
          ∀ m ∈ membersOf items, ¬(v == m) = true) ∧
        ∀ ms, ms.map Member.value = membersOf items →
          (Member.insert Value.compare v ms).map (List.map Member.value) =
            insertMemberBy Value.compare v (membersOf items)) ∧
      ∀ others, TypesApart (items ++ others) → SameMembers items others →
        (setOf items).compare (setOf others) = .eq ∧ (setOf items).hash = (setOf others).hash ∧
          (setOf items).toJson = (setOf others).toJson ∧
          (setOf items).display = (setOf others).display ∧
          ∀ a b, (Object.set a (membersOf items)).hashOwn =
              (Object.set b (membersOf others)).hashOwn ∧
            (Object.set a (membersOf items)).dump = (Object.set b (membersOf others)).dump := by
  have hsub (items : List Value) : membersOf items ⊆ items := membersBy_subset _ _
  refine ⟨rfl, fun m hm => ?_, fun ht => ⟨ht.increasing_membersOf, fun v hv => ?_⟩,
    fun v ht => ?_, fun others ht h => ?_⟩
  · exact ⟨m, hsub items hm, (beq_iff_compare m m).2 (compare_self m)⟩
  · obtain ⟨m, hm, he⟩ := ht.exists_mem_membersOf hv
    have hkey {m : Value} (hm : m ∈ membersOf items) : v.compare m = v.keyOrder m :=
      ht.compare_eq hv (hsub items hm)
    have hone := countP_order_eq_one ((ht.mono (hsub items)).pairwise_keyOrder ht.increasing_membersOf)
      ⟨m, hm, (hkey hm).symm.trans he⟩
    rw [← hone]
    refine List.countP_congr fun n hn => ?_
    rw [beq_iff_compare, hkey hn, beq_iff_eq]
  · have hmembers : v :: membersOf items ⊆ v :: items := List.cons_subset_cons v (hsub items)
    have hi : Increasing (membersOf items) :=
      (ht.mono (List.subset_cons_self v items)).increasing_membersOf
    have harranged : Arranged v.compare (membersOf items) := (ht.mono hmembers).arranged hi
    constructor
    · rw [← Option.ne_none_iff_isSome, ne_eq, (placed_insertMemberBy harranged).eq_none_iff]
      simp only [beq_iff_compare, not_exists, not_and]
    · intro ms hms
      rw [← hms] at harranged ⊢
      exact (Member.placed_insert harranged).eq_insertMemberBy harranged
  · have hmembers : membersOf items ++ membersOf others ⊆ items ++ others :=
      List.append_subset.2 ⟨List.subset_append_of_subset_left _ (hsub items),
        List.subset_append_of_subset_right _ (hsub others)⟩
    have ht' := ht.mono hmembers
    have heq := (ht.mono (List.subset_append_left items others)).increasing_membersOf.compareMembers_eq
      (ht.mono (List.subset_append_right items others)).increasing_membersOf ht' (h.membersOf ht)
    have hc := (set_alike ht'.placesApart heq 0 0).1
    refine ⟨(compare_set _ _).trans heq, ?_, ?_, ?_, ?_⟩
    · rw [← hash_content, setOf, hc, hash_content, setOf]
    · rw [← toJson_content, setOf, hc, toJson_content, setOf]
    · rw [← display_content, setOf, hc, display_content, setOf]
    · intro a b
      exact (set_alike ht'.placesApart heq a b).2

/-- Two references to one connection, of which the set that is made from either list keeps one. -/
theorem sets_canonical_references :
    let connection (a : Nat) : Value := .object (.connection a 7)
    let script : Value := .object (.plugin 5 "script")
    let items := [script, connection 1, .int 2, connection 2]
    let others := [connection 9, .int 2, .int 2, script]
    TypesApart (script :: items) ∧ TypesApart (items ++ others) ∧ SameMembers items others ∧
      Increasing (membersOf items) ∧
      (membersOf items).countP (connection 2 == ·) = 1 ∧
      (insertMemberBy Value.compare script (membersOf items)).isSome = false ∧
      (setOf items).compare (setOf others) = .eq ∧ (setOf items).hash = (setOf others).hash := by
  intro connection script items others
  have ht : TypesApart (script :: items) := by decide
  have hboth : TypesApart (items ++ others) := by decide
  have hsame : SameMembers items others := by
    unfold SameMembers
    decide
  obtain ⟨-, -, hone, hput, hcanonical⟩ := sets_canonical items
  obtain ⟨hi, hcount⟩ := hone (ht.mono (List.subset_cons_self script items))
  obtain ⟨hcompare, hhash, -⟩ := hcanonical others hboth hsame
  refine ⟨ht, hboth, hsame, hi, hcount _ (by simp [items]), ?_, hcompare, hhash⟩
  have hmem : script ∈ membersOf items := by
    have hmembers : membersOf items = [.int 2, connection 1, script] := rfl
    rw [hmembers]
    exact .tail _ (.tail _ (.head _))
  rw [Bool.eq_false_iff, Ne, (hput script ht).1]
  exact fun hnone => hnone script hmem ((beq_iff_compare _ _).2 (compare_self script))

/-- Two sets and between them, by where they are, an object of another type that is named as sets
are: what is made of the three depends on which comes first. -/
theorem sets_made_in_two_orders :
    let one : Value := .object (.set 3 [.int 1])
    let two : Value := .object (.set 1 [.int 2])
    let between : Value := .object (.plugin 2 "set")
    let items := [one, between, two]
    let others := [between, two, one]
    SameMembers items others ∧ membersOf items = [two, between, one] ∧
      membersOf others = [one, two, between] ∧ (setOf items).compare (setOf others) ≠ .eq ∧
      ¬Increasing (membersOf items) := by
  intro one two between items others
  have hitems : membersOf items = [two, between, one] := rfl
  have hothers : membersOf others = [one, two, between] := rfl
  refine ⟨?_, hitems, hothers, ?_, ?_⟩
  · unfold SameMembers
    decide
  · rw [setOf, setOf, hitems, hothers, compare_set]
    decide
  · rw [hitems]
    unfold Increasing
    decide

end TransactionEngine.Value
