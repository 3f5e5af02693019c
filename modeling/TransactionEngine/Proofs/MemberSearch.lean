import Mathlib.Tactic.Common
import TransactionEngine.Heap.Search
import TransactionEngine.Value.Order

/-!
# The place of a value among members in order

The search from level to level and the search from member to member look for the place of a value
among members, and give up when an equal member is met. As long as the members are in order, both
come to the same: there is an equal member, or the value belongs between the members that are
smaller and those that are larger.
-/

namespace TransactionEngine

/-- Whatever stands behind a member that is not smaller than a value is larger; `order` compares the
value with members. -/
def Arranged (order : Value → Ordering) (members : List Value) : Prop :=
  members.Pairwise fun m n => order m ≠ .gt → order n = .lt

/-- An equal member was met, or the value stands between the smaller members and the larger ones. -/
inductive Placed (order : Value → Ordering) (v : Value) (members : List Value) :
    Option (List Value) → Prop
  | met {m : Value} (hm : m ∈ members) (he : order m = .eq) : Placed order v members none
  | put {smaller larger : List Value} (hl : members = smaller ++ larger)
    (hs : ∀ m ∈ smaller, order m = .gt) (hg : ∀ m ∈ larger, order m = .lt) :
    Placed order v members (some (smaller ++ v :: larger))

variable {order : Value → Ordering} {cmp : Value → Value → Ordering} {v : Value}
  {members : List Value} {now : Option (List Value)}

lemma Arranged.larger {m : Value} {ms : List Value} (h : Arranged order (m :: ms))
    (hm : order m ≠ .gt) : ∀ n ∈ ms, order n = .lt :=
  fun n hn => (List.pairwise_cons.1 h).1 n hn hm

lemma Arranged.smaller {ms ns : List Value} {n : Value} (h : Arranged order (ms ++ n :: ns))
    (hn : order n ≠ .lt) : ∀ m ∈ ms, order m = .gt := by
  intro m hm
  by_contra hne
  exact hn ((List.pairwise_append.1 h).2.2 m hm n List.mem_cons_self hne)

lemma arranged_of_pairwise [Std.TransCmp cmp] (v : Value)
    (h : members.Pairwise fun m n => cmp m n = .lt) : Arranged (cmp v) members := by
  refine h.imp fun {m n} hmn hm => ?_
  have hle : (cmp v m).isLE := by
    cases hv : cmp v m with
    | gt => exact absurd hv hm
    | _ => rfl
  exact Std.TransCmp.lt_of_isLE_of_lt hle hmn

lemma placed_insertMemberBy (h : Arranged (cmp v) members) :
    Placed (cmp v) v members (Value.insertMemberBy cmp v members) := by
  induction members with
  | nil => exact .put (List.nil_append []).symm nofun nofun
  | cons m ms ih =>
    rw [Value.insertMemberBy]
    cases hm : cmp v m with
    | lt =>
      refine .put (List.nil_append (m :: ms)).symm nofun ?_
      exact List.forall_mem_cons.2 ⟨hm, h.larger (by rw [hm]; nofun)⟩
    | eq => exact .met List.mem_cons_self hm
    | gt =>
      have hp := ih (List.pairwise_cons.1 h).2
      dsimp only
      generalize Value.insertMemberBy cmp v ms = now at hp
      cases hp with
      | met hn he => exact .met (List.mem_cons_of_mem m hn) he
      | put hl hs hg =>
        rw [hl]
        exact .put List.cons_append.symm (List.forall_mem_cons.2 ⟨hm, hs⟩) hg

lemma insertMemberBy_append {smaller larger : List Value} (hs : ∀ m ∈ smaller, cmp v m = .gt)
    (hg : ∀ m ∈ larger, cmp v m = .lt) :
    Value.insertMemberBy cmp v (smaller ++ larger) = some (smaller ++ v :: larger) := by
  induction smaller with
  | nil =>
    cases larger with
    | nil => rfl
    | cons m ms =>
      rw [List.nil_append, Value.insertMemberBy, hg m List.mem_cons_self]
      rfl
  | cons m ms ih =>
    obtain ⟨hm, hms⟩ := List.forall_mem_cons.1 hs
    rw [List.cons_append, Value.insertMemberBy, hm, ih hms]
    rfl

/-- There is no more than one place for a value. -/
lemma Placed.eq_insertMemberBy (h : Arranged (cmp v) members)
    (hp : Placed (cmp v) v members now) : now = Value.insertMemberBy cmp v members := by
  cases hp with
  | put hl hs hg => rw [hl, insertMemberBy_append hs hg]
  | @met m hm he =>
    have hp := placed_insertMemberBy h
    generalize Value.insertMemberBy cmp v members = now at hp
    cases hp with
    | met => rfl
    | put hl hs hg =>
      rw [hl, List.mem_append] at hm
      obtain hm | hm := hm
      · cases he.symm.trans (hs m hm)
      · cases he.symm.trans (hg m hm)

lemma Placed.eq_none_iff (hp : Placed order v members now) :
    now = none ↔ ∃ m ∈ members, order m = .eq := by
  cases hp with
  | @met m hm he => exact iff_of_true rfl ⟨m, hm, he⟩
  | put hl hs hg =>
    refine iff_of_false nofun ?_
    rintro ⟨m, hm, he⟩
    rw [hl, List.mem_append] at hm
    obtain hm | hm := hm
    · cases he.symm.trans (hs m hm)
    · cases he.symm.trans (hg m hm)

lemma Placed.pairwise {now : List Value} (hp : Placed (cmp v) v members (some now))
    (hv : ∀ m ∈ members, cmp v m = .gt → cmp m v = .lt)
    (h : members.Pairwise fun m n => cmp m n = .lt) : now.Pairwise fun m n => cmp m n = .lt := by
  cases hp with
  | put hl hs hg =>
    rw [hl] at h hv
    obtain ⟨hsmaller, hlarger, hacross⟩ := List.pairwise_append.1 h
    refine List.pairwise_append.2 ⟨hsmaller, List.pairwise_cons.2 ⟨hg, hlarger⟩, ?_⟩
    intro m hm n hn
    obtain rfl | hn := List.mem_cons.1 hn
    · exact hv m (List.mem_append_left _ hm) (hs m hm)
    · exact hacross m hm n hn

lemma Placed.mem_iff {now : List Value} {w : Value}
    (hp : Placed order v members (some now)) : w ∈ now ↔ w = v ∨ w ∈ members := by
  cases hp with
  | put hl => rw [hl, List.mem_append, List.mem_cons, List.mem_append, or_left_comm]

/-! ### From level to level -/

namespace Member

/-- What was passed before a gap is smaller than a value, and what stands after it is larger. -/
structure Gap.Around (order : Value → Ordering) (gap : Gap) : Prop where
  before : ∀ m ∈ gap.before, order m.value = .gt
  inside : Arranged order (gap.inside.map value)
  after : ∀ m ∈ gap.after, order m.value = .lt

/-- Narrowing at a level leaves no member of that level in the gap, and loses no equal one. -/
lemma narrow_around {level : Nat} {before inside rest : List Member}
    (hb : ∀ m ∈ before, order m.value = .gt)
    (hr : Arranged order ((inside.reverse ++ rest).map value)) :
    (narrow order level before inside rest = none ∧ ∃ m ∈ rest, order m.value = .eq) ∨
      ∃ gap, narrow order level before inside rest = some gap ∧ gap.Around order ∧
        ∀ m ∈ gap.inside, m ∈ inside ∨ m ∈ rest ∧ m.level ≠ level := by
  induction rest generalizing before inside with
  | nil =>
    rw [List.append_nil] at hr
    exact .inr ⟨_, rfl, ⟨hb, hr, nofun⟩, fun m hm => .inl (List.mem_reverse.1 hm)⟩
  | cons m ms ih =>
    have hsplit : Arranged order (inside.reverse.map value ++ m.value :: ms.map value) := by
      rw [List.map_append, List.map_cons] at hr
      exact hr
    have hms : Arranged order (m.value :: ms.map value) := (List.pairwise_append.1 hsplit).2.1
    rw [narrow]
    by_cases hlevel : m.level = level
    · rw [if_pos hlevel]
      cases hm : order m.value with
      | lt =>
        have hinside : Arranged order (inside.reverse.map value) :=
          (List.pairwise_append.1 hsplit).1
        have hlarger := hms.larger (by rw [hm]; decide)
        rw [List.forall_mem_map] at hlarger
        exact .inr ⟨_, rfl, ⟨hb, hinside, List.forall_mem_cons.2 ⟨hm, hlarger⟩⟩,
          fun n hn => .inl (List.mem_reverse.1 hn)⟩
      | eq => exact .inl ⟨rfl, m, List.mem_cons_self, hm⟩
      | gt =>
        -- What is passed without being looked at is smaller still.
        have hsmaller := hsplit.smaller (by rw [hm]; decide)
        rw [List.forall_mem_map] at hsmaller
        have hpassed : ∀ n ∈ m :: (inside ++ before), order n.value = .gt := by
          refine List.forall_mem_cons.2 ⟨hm, List.forall_mem_append.2 ⟨?_, hb⟩⟩
          exact fun n hn => hsmaller n (List.mem_reverse.2 hn)
        obtain ⟨hn, n, hmem, he⟩ | ⟨gap, hg, haround, hmem⟩ :=
          @ih (m :: (inside ++ before)) [] hpassed (List.pairwise_cons.1 hms).2
        · exact .inl ⟨hn, n, List.mem_cons_of_mem m hmem, he⟩
        · refine .inr ⟨gap, hg, haround, fun n hn => .inr ?_⟩
          obtain hn | ⟨hn, hlevel⟩ := hmem n hn
          · cases hn
          · exact ⟨List.mem_cons_of_mem m hn, hlevel⟩
    · rw [if_neg hlevel]
      have hr' : Arranged order (((m :: inside).reverse ++ ms).map value) := by
        rw [List.reverse_cons, List.append_assoc]
        exact hr
      obtain ⟨hn, n, hmem, he⟩ | ⟨gap, hg, haround, hmem⟩ := ih hb hr'
      · exact .inl ⟨hn, n, List.mem_cons_of_mem m hmem, he⟩
      · refine .inr ⟨gap, hg, haround, fun n hn => ?_⟩
        obtain hn | ⟨hn, hne⟩ := hmem n hn
        · obtain rfl | hn := List.mem_cons.1 hn
          · exact .inr ⟨List.mem_cons_self, hlevel⟩
          · exact .inl hn
        · exact .inr ⟨List.mem_cons_of_mem m hn, hne⟩

lemma locate_around {height : Nat} {gap : Gap} (h : gap.Around order)
    (hl : ∀ m ∈ gap.inside, m.level < height) :
    (locate order height gap = none ∧ ∃ m ∈ gap.inside, order m.value = .eq) ∨
      ∃ inner, locate order height gap = some inner ∧ inner.Around order ∧ inner.inside = [] := by
  induction height generalizing gap with
  | zero =>
    have hnone : gap.inside = [] :=
      List.eq_nil_iff_forall_not_mem.2 fun m hm => Nat.not_lt_zero _ (hl m hm)
    exact .inr ⟨gap, rfl, h, hnone⟩
  | succ level ih =>
    rw [locate]
    obtain ⟨hn, he⟩ | ⟨inner, hi, haround, hmem⟩ :=
      @narrow_around order level gap.before [] gap.inside h.before h.inside
    · rw [hn]
      exact .inl ⟨rfl, he⟩
    · rw [hi]
      have hafter : ∀ m ∈ inner.after ++ gap.after, order m.value = .lt :=
        List.forall_mem_append.2 ⟨haround.after, h.after⟩
      have hlower : ∀ m ∈ inner.inside, m ∈ gap.inside ∧ m.level < level := by
        intro m hm
        obtain hm | ⟨hm, hne⟩ := hmem m hm
        · cases hm
        · have hlt := hl m hm
          exact ⟨hm, by omega⟩
      obtain ⟨hn, m, hm, he⟩ | hsome :=
        @ih { inner with after := inner.after ++ gap.after }
          ⟨haround.before, haround.inside, hafter⟩ fun m hm => (hlower m hm).2
      · exact .inl ⟨hn, m, (hlower m hm).1, he⟩
      · exact .inr hsome

lemma level_lt_height {members : List Member} : ∀ m ∈ members, m.level < height members := by
  induction members with
  | nil => nofun
  | cons n ns ih =>
    have hheight : height (n :: ns) = max (n.level + 1) (height ns) := rfl
    refine List.forall_mem_cons.2 ⟨by omega, fun m hm => ?_⟩
    have hm := ih m hm
    omega

/-- The search from level to level places a value. -/
theorem placed_insert {members : List Member} (h : Arranged (cmp v) (members.map value)) :
    Placed (cmp v) v (members.map value) ((insert cmp v members).map (List.map value)) := by
  have hgap : Gap.Around (cmp v) ⟨[], members, []⟩ := ⟨nofun, h, nofun⟩
  rw [insert]
  obtain ⟨hn, m, hm, he⟩ | ⟨inner, hi, haround, hnil⟩ := locate_around hgap level_lt_height
  · rw [hn]
    exact .met (List.mem_map_of_mem hm) he
  · have hsplit := locate_append hi
    simp only [hnil, List.append_nil, List.reverse_nil, List.nil_append] at hsplit
    simp only [Option.bind_eq_bind, hi, Option.bind_some, Option.pure_def, Option.map_some,
      map_value_settle, hnil, List.append_nil, List.map_append, List.map_cons]
    refine .put ?_ ?_ ?_
    · rw [← List.map_append, hsplit]
    · exact List.forall_mem_map.2 fun m hm => haround.before m (List.mem_reverse.1 hm)
    · exact List.forall_mem_map.2 haround.after

end Member

end TransactionEngine
