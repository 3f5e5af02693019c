import TransactionEngine.Combo.Trie
import TransactionEngine.Proofs.TableContents

/-!
# What a trie holds

A trie is told by the combos at the ends of its paths: each node but the root is on the way to one.
Placing and erasing change one path and leave no node that is of no use.
-/

namespace TransactionEngine.Trie

variable {t : Trie} {c : Combo}

/-- The combo at the end of a path. -/
def combo? (t : Trie) (codes : List UInt16) : Option Combo :=
  (t.walk codes).bind Trie.combo

/-- A trie in which every node below the root is of use, in tables that are well made. -/
inductive Tidy : Trie → Prop where
  | node {t : Trie} (sound : t.children.Sound)
      (used : ∀ code child, t.next code = some child → child.isUnused = false)
      (below : ∀ code child, t.next code = some child → Tidy child) : Tidy t

namespace Tidy

lemma sound (h : t.Tidy) : t.children.Sound := by
  cases h with
  | node sound used below => exact sound

lemma used_child (h : t.Tidy) {code : UInt16} {child : Trie} (hn : t.next code = some child) :
    child.isUnused = false := by
  cases h with
  | node sound used below => exact used code child hn

lemma tidy_child (h : t.Tidy) {code : UInt16} {child : Trie} (hn : t.next code = some child) :
    child.Tidy := by
  cases h with
  | node sound used below => exact below code child hn

end Tidy

lemma next_empty (code : UInt16) : empty.next code = none :=
  SparseTable.get?_rootless code _ _

lemma tidy_empty : empty.Tidy :=
  .node SparseTable.sound_empty (fun code child h => by rw [next_empty] at h; cases h)
    fun code child h => by rw [next_empty] at h; cases h

lemma walk_cons (t : Trie) (code : UInt16) (codes : List UInt16) :
    t.walk (code :: codes) = (t.next code).bind (walk · codes) := by
  rw [walk]

lemma foldlM_next (t : Trie) (codes : List UInt16) : codes.foldlM next t = t.walk codes := by
  induction codes generalizing t with
  | nil => rfl
  | cons code codes ih =>
    rw [List.foldlM_cons, walk_cons]
    exact Option.bind_congr fun child _ => ih child

lemma walk_append (t : Trie) (p q : List UInt16) :
    t.walk (p ++ q) = (t.walk p).bind (walk · q) := by
  induction p generalizing t with
  | nil => rfl
  | cons code p ih =>
    rw [List.cons_append, walk_cons, walk_cons, Option.bind_assoc]
    exact Option.bind_congr fun child _ => ih child

@[simp] lemma combo?_nil (t : Trie) : t.combo? [] = t.combo := rfl

@[simp] lemma combo?_cons (t : Trie) (code : UInt16) (codes : List UInt16) :
    t.combo? (code :: codes) = (t.next code).bind (combo? · codes) := by
  unfold combo?
  rw [walk_cons, Option.bind_assoc]

lemma combo?_append (t : Trie) (p q : List UInt16) :
    t.combo? (p ++ q) = (t.walk p).bind (combo? · q) := by
  unfold combo?
  rw [walk_append, Option.bind_assoc]

lemma combo?_empty (codes : List UInt16) : empty.combo? codes = none := by
  cases codes with
  | nil => rfl
  | cons code codes => rw [combo?_cons, next_empty, Option.bind_none]

lemma Tidy.walk (h : t.Tidy) {p : List UInt16} {node : Trie} (hw : t.walk p = some node) :
    node.Tidy := by
  induction p generalizing t with
  | nil =>
    cases hw
    exact h
  | cons code p ih =>
    rw [walk_cons] at hw
    obtain ⟨child, hn, hw⟩ := Option.bind_eq_some_iff.1 hw
    exact ih (h.tidy_child hn) hw

lemma Tidy.isLeaf_iff (h : t.Tidy) : t.isLeaf = true ↔ ∀ code, t.next code = none :=
  h.sound.isEmpty_iff

lemma isUnused_iff (h : t.Tidy) :
    t.isUnused = true ↔ t.combo = none ∧ ∀ code, t.next code = none := by
  unfold isUnused
  rw [Bool.and_eq_true, Option.isNone_iff_eq_none, h.isLeaf_iff]

/-- A node is of use exactly if a path ends with a combo at it or below it. -/
lemma Tidy.isUnused_iff_combo? (h : t.Tidy) : t.isUnused = true ↔ ∀ p, t.combo? p = none := by
  induction h with
  | @node t sound used below ih =>
    rw [isUnused_iff (.node sound used below)]
    constructor
    · rintro ⟨hc, hn⟩ p
      cases p with
      | nil => exact hc
      | cons code p => rw [combo?_cons, hn code, Option.bind_none]
    · intro hp
      refine ⟨hp [], fun code => ?_⟩
      by_contra hne
      obtain ⟨child, hn⟩ := Option.ne_none_iff_exists'.1 hne
      have hu : child.isUnused = true := by
        rw [ih code child hn]
        intro p
        have hpc := hp (code :: p)
        rwa [combo?_cons, hn, Option.bind_some] at hpc
      rw [used code child hn] at hu
      cases hu

lemma Tidy.isUnused_eq_false (h : t.Tidy) {p : List UInt16} (hp : (t.combo? p).isSome) :
    t.isUnused = false := by
  rw [Bool.eq_false_iff]
  intro hu
  rw [h.isUnused_iff_combo?.1 hu p] at hp
  cases hp

lemma Tidy.exists_combo? (h : t.Tidy) (hu : t.isUnused = false) : ∃ p, (t.combo? p).isSome := by
  by_contra hn
  rw [Bool.eq_false_iff] at hu
  apply hu
  rw [h.isUnused_iff_combo?]
  intro p
  rw [← Option.not_isSome_iff_eq_none]
  exact fun hp => hn ⟨p, hp⟩

lemma Tidy.used_walk (h : t.Tidy) {p : List UInt16} {code : UInt16} {node : Trie}
    (hw : t.walk (p ++ [code]) = some node) : node.isUnused = false := by
  rw [walk_append] at hw
  obtain ⟨parent, hparent, hlast⟩ := Option.bind_eq_some_iff.1 hw
  rw [walk_cons] at hlast
  obtain ⟨child, hchild, hend⟩ := Option.bind_eq_some_iff.1 hlast
  cases hend
  exact (h.walk hparent).used_child hchild

/-- A path leads somewhere exactly if it is the way, or part of the way, to a combo. -/
lemma Tidy.walk_isSome_iff (h : t.Tidy) (p : List UInt16) :
    (t.walk p).isSome ↔ p = [] ∨ ∃ q, (t.combo? (p ++ q)).isSome := by
  constructor
  · intro hw
    obtain ⟨node, hnode⟩ := Option.isSome_iff_exists.1 hw
    rcases List.eq_nil_or_concat' p with rfl | ⟨q, code, rfl⟩
    · exact .inl rfl
    · right
      -- a node that is not the root is of use, so there is a combo at it or below it
      obtain ⟨r, hr⟩ := (h.walk hnode).exists_combo? (h.used_walk hnode)
      refine ⟨r, ?_⟩
      rwa [combo?_append, hnode, Option.bind_some]
  · rintro (rfl | ⟨q, hq⟩)
    · rfl
    · rw [combo?_append] at hq
      exact Option.isSome_of_isSome_bind hq

lemma Tidy.isLeaf_walk_iff (h : t.Tidy) {p : List UInt16} {node : Trie}
    (hw : t.walk p = some node) :
    node.isLeaf = true ↔ ∀ q, q ≠ [] → t.combo? (p ++ q) = none := by
  have ht := h.walk hw
  have happ (q : List UInt16) : t.combo? (p ++ q) = node.combo? q := by
    rw [combo?_append, hw, Option.bind_some]
  simp only [happ]
  rw [ht.isLeaf_iff]
  constructor
  · intro hn q hq
    cases q with
    | nil => exact absurd rfl hq
    | cons code q => rw [combo?_cons, hn code, Option.bind_none]
  · intro hn code
    by_contra hne
    obtain ⟨child, hchild⟩ := Option.ne_none_iff_exists'.1 hne
    obtain ⟨r, hr⟩ := (ht.tidy_child hchild).exists_combo? (ht.used_child hchild)
    have hnone := hn (code :: r) (List.cons_ne_nil code r)
    rw [combo?_cons, hchild, Option.bind_some] at hnone
    rw [hnone] at hr
    cases hr

/-! ### Placing -/

def withChild (t : Trie) (code : UInt16) (child : Trie) : Trie :=
  { t with children := t.children.set code child }

lemma next_withChild (h : t.Tidy) (code k : UInt16) (child : Trie) :
    (t.withChild code child).next k = if k = code then some child else t.next k :=
  SparseTable.get?_set h.sound code k child

lemma eq_or_next_of_withChild (h : t.Tidy) {code k : UInt16} {child x : Trie}
    (hx : (t.withChild code child).next k = some x) : x = child ∨ t.next k = some x := by
  rw [next_withChild h] at hx
  by_cases hk : k = code
  · rw [if_pos hk, Option.some.injEq] at hx
    exact .inl hx.symm
  · rw [if_neg hk] at hx
    exact .inr hx

lemma Tidy.withChild (h : t.Tidy) (code : UInt16) {child : Trie} (hc : child.Tidy)
    (hu : child.isUnused = false) : (t.withChild code child).Tidy := by
  constructor
  · exact h.sound.set code child
  · intro k x hx
    obtain rfl | hx := eq_or_next_of_withChild h hx
    · exact hu
    · exact h.used_child hx
  · intro k x hx
    obtain rfl | hx := eq_or_next_of_withChild h hx
    · exact hc
    · exact h.tidy_child hx

lemma combo?_withChild (h : t.Tidy) (code k : UInt16) (child : Trie) (p : List UInt16) :
    (t.withChild code child).combo? (k :: p) =
      if k = code then child.combo? p else t.combo? (k :: p) := by
  rw [combo?_cons, combo?_cons, next_withChild h]
  by_cases hk : k = code
  · rw [if_pos hk, if_pos hk, Option.bind_some]
  · rw [if_neg hk, if_neg hk]

lemma Tidy.getD_next (h : t.Tidy) (code : UInt16) : ((t.next code).getD empty).Tidy := by
  cases hn : t.next code with
  | none => exact tidy_empty
  | some child => exact h.tidy_child hn

lemma combo?_getD_next (t : Trie) (code : UInt16) (codes : List UInt16) :
    ((t.next code).getD empty).combo? codes = t.combo? (code :: codes) := by
  rw [combo?_cons]
  cases t.next code with
  | none => exact combo?_empty codes
  | some child => rfl

lemma place_nil_of_some {holder : Combo} (h : t.combo = some holder) (c : Combo) :
    t.place c [] = (some holder, t) := by
  rw [place, h]

lemma place_nil_of_none (h : t.combo = none) (c : Combo) :
    t.place c [] = (none, { t with combo := some c }) := by
  rw [place, h]

/-- A new child that is made on the way does not outlast the one that is placed in its stead. -/
lemma place_cons (h : t.Tidy) (c : Combo) (code : UInt16) (codes : List UInt16) :
    t.place c (code :: codes) =
      ((((t.next code).getD empty).place c codes).1,
        t.withChild code (((t.next code).getD empty).place c codes).2) := by
  rw [place]
  cases hn : t.next code with
  | none =>
    rw [SparseTable.insertNew_of_none hn]
    dsimp only
    rw [SparseTable.set_set h.sound]
    rfl
  | some child =>
    rw [SparseTable.insertNew_of_some hn]
    rfl

/-- What placing comes to: the combo that was at the end, and at that end the one that is there now. -/
lemma place_spec (h : t.Tidy) (c : Combo) (codes : List UInt16) :
    (t.place c codes).1 = t.combo? codes ∧ (t.place c codes).2.Tidy ∧
      ∀ p, (t.place c codes).2.combo? p =
        if p = codes then some ((t.combo? codes).getD c) else t.combo? p := by
  induction codes generalizing t with
  | nil =>
    cases hc : t.combo with
    | some holder =>
      rw [place_nil_of_some hc, combo?_nil, hc]
      refine ⟨rfl, h, fun p => ?_⟩
      by_cases hp : p = []
      · rw [if_pos hp, hp]
        exact hc
      · rw [if_neg hp]
    | none =>
      rw [place_nil_of_none hc, combo?_nil, hc]
      refine ⟨rfl, .node h.sound (fun _ _ => h.used_child) fun _ _ => h.tidy_child, fun p => ?_⟩
      cases p with
      | nil => rfl
      | cons k p => rfl
  | cons code codes ih =>
    obtain ⟨hholder, htidy, hcombo⟩ := ih (h.getD_next code)
    rw [place_cons h, ← combo?_getD_next]
    -- there is a combo below the child now, so the child is of use
    have hused : (((t.next code).getD empty).place c codes).2.isUnused = false := by
      refine htidy.isUnused_eq_false (p := codes) ?_
      rw [hcombo, if_pos rfl]
      rfl
    refine ⟨hholder, h.withChild code htidy hused, fun p => ?_⟩
    cases p with
    | nil => rw [if_neg (List.cons_ne_nil _ _).symm]; rfl
    | cons k p =>
      rw [combo?_withChild h, hcombo]
      by_cases hk : k = code
      · subst hk
        rw [if_pos rfl, combo?_getD_next, combo?_getD_next]
        simp only [List.cons.injEq, true_and]
      · rw [if_neg hk, if_neg fun he => hk (List.cons.inj he).1]

lemma place_taken (h : t.Tidy) (c : Combo) {codes : List UInt16} (ht : (t.combo? codes).isSome) :
    (t.place c codes).2 = t := by
  induction codes generalizing t with
  | nil =>
    obtain ⟨holder, hc⟩ := Option.isSome_iff_exists.1 ht
    rw [place_nil_of_some hc]
  | cons code codes ih =>
    rw [← combo?_getD_next] at ht
    have hn : ∃ child, t.next code = some child := by
      by_contra hne
      rw [Option.eq_none_iff_forall_ne_some.2 (not_exists.1 hne), Option.getD_none,
        combo?_empty] at ht
      cases ht
    obtain ⟨child, hn⟩ := hn
    rw [place_cons h, ih (h.getD_next code) ht, hn, Option.getD_some]
    change (⟨t.combo, t.children.set code child⟩ : Trie) = t
    rw [SparseTable.set_of_get? h.sound.pos hn]
    cases t
    rfl

def withoutChild (t : Trie) (code : UInt16) : Trie :=
  { t with children := (t.children.erase code).2 }

lemma next_withoutChild (h : t.Tidy) (code k : UInt16) :
    (t.withoutChild code).next k = if k = code then none else t.next k :=
  SparseTable.get?_erase h.sound code k

lemma Tidy.withoutChild (h : t.Tidy) (code : UInt16) : (t.withoutChild code).Tidy := by
  have hn {k : UInt16} {x : Trie} (hx : (t.withoutChild code).next k = some x) :
      t.next k = some x := by
    rw [next_withoutChild h] at hx
    split at hx
    · cases hx
    · exact hx
  constructor
  · exact h.sound.erase code
  · exact fun k x hx => h.used_child (hn hx)
  · exact fun k x hx => h.tidy_child (hn hx)

lemma combo?_withoutChild (h : t.Tidy) (code k : UInt16) (p : List UInt16) :
    (t.withoutChild code).combo? (k :: p) = if k = code then none else t.combo? (k :: p) := by
  rw [combo?_cons, combo?_cons, next_withoutChild h]
  by_cases hk : k = code
  · rw [if_pos hk, if_pos hk, Option.bind_none]
  · rw [if_neg hk, if_neg hk]

/-- The node after something was erased below a child. -/
def prune (t : Trie) (code : UInt16) (child : Trie) : Trie :=
  if child.isUnused then t.withoutChild code else t.withChild code child

lemma eraseAt_cons (t : Trie) (code : UInt16) (codes : List UInt16) :
    t.eraseAt (code :: codes) =
      (t.next code).bind fun child =>
        (child.eraseAt codes).map fun removed => (removed.1, t.prune code removed.2) := by
  rw [eraseAt]
  cases t.next code with
  | none => rfl
  | some child =>
    change (child.eraseAt codes).bind _ = (child.eraseAt codes).map _
    cases child.eraseAt codes with
    | none => rfl
    | some removed =>
      obtain ⟨c, child⟩ := removed
      change some (c, { t with children := _ }) = some (c, t.prune code child)
      unfold prune
      by_cases hu : child.isUnused = true
      · rw [if_pos hu, if_pos hu]
        rfl
      · rw [if_neg hu, if_neg hu]
        rfl

/-- Whether a child is kept or goes, the paths below it are those that it has. -/
lemma combo?_prune (h : t.Tidy) (code k : UInt16) {child : Trie} (hc : child.Tidy)
    (p : List UInt16) :
    (t.prune code child).combo? (k :: p) =
      if k = code then child.combo? p else t.combo? (k :: p) := by
  unfold prune
  by_cases hu : child.isUnused = true
  · rw [if_pos hu, combo?_withoutChild h, hc.isUnused_iff_combo?.1 hu p]
  · rw [if_neg hu, combo?_withChild h]

lemma Tidy.prune (h : t.Tidy) (code : UInt16) {child : Trie} (hc : child.Tidy) :
    (t.prune code child).Tidy := by
  unfold Trie.prune
  by_cases hu : child.isUnused = true
  · rw [if_pos hu]
    exact h.withoutChild code
  · rw [if_neg hu]
    exact h.withChild code hc (Bool.eq_false_iff.2 hu)

lemma eraseAt_map_fst (t : Trie) (codes : List UInt16) :
    (t.eraseAt codes).map Prod.fst = t.combo? codes := by
  induction codes generalizing t with
  | nil =>
    rw [eraseAt, combo?_nil]
    cases t.combo <;> rfl
  | cons code codes ih =>
    rw [eraseAt_cons, combo?_cons, Option.map_bind]
    refine Option.bind_congr fun child _ => ?_
    rw [← ih child, Function.comp_apply, Option.map_map]
    rfl

lemma eraseAt_spec (h : t.Tidy) {codes : List UInt16} {c : Combo} {u : Trie}
    (he : t.eraseAt codes = some (c, u)) :
    u.Tidy ∧ ∀ p, u.combo? p = if p = codes then none else t.combo? p := by
  induction codes generalizing t u with
  | nil =>
    rw [eraseAt] at he
    obtain ⟨holder, hc, he⟩ := Option.map_eq_some_iff.1 he
    cases he
    refine ⟨.node h.sound (fun _ _ => h.used_child) fun _ _ => h.tidy_child, fun p => ?_⟩
    cases p with
    | nil => rfl
    | cons k p => rfl
  | cons code codes ih =>
    rw [eraseAt_cons] at he
    obtain ⟨child, hn, he⟩ := Option.bind_eq_some_iff.1 he
    obtain ⟨⟨holder, rest⟩, hrest, he⟩ := Option.map_eq_some_iff.1 he
    cases he
    obtain ⟨htidy, hcombo⟩ := ih (h.tidy_child hn) hrest
    refine ⟨h.prune code htidy, fun p => ?_⟩
    cases p with
    | nil =>
      rw [if_neg (List.cons_ne_nil _ _).symm]
      unfold prune
      split <;> rfl
    | cons k p =>
      rw [combo?_prune h code k htidy, hcombo]
      by_cases hk : k = code
      · subst hk
        rw [if_pos rfl, combo?_cons, hn, Option.bind_some]
        simp only [List.cons.injEq, true_and]
      · rw [if_neg hk, if_neg fun heq => hk (List.cons.inj heq).1]

end TransactionEngine.Trie
