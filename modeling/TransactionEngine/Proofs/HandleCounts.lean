import Mathlib.Data.List.Nodup
import TransactionEngine.Handles

/-!
# Handles are counted

An object counts the handles to it: those that are held outside of the heap, and those that live
objects hold. Nothing that is still held is given up, and what is no longer held is closed once.
-/

namespace TransactionEngine.Heap

/-- The addresses of the live objects. -/
def addresses (h : Heap) : List Nat :=
  h.cells.map fun c => c.object.address

/-- The addresses that live objects hold handles to, once for every handle. -/
def held (h : Heap) : List Nat :=
  h.cells.flatMap Cell.handles

/-- A heap with one more object, which is at the next address. -/
def add (h : Heap) (c : Cell) : Heap :=
  { h with cells := h.cells ++ [c], next := h.next + 1 }

/-- Every object there was is alive or was closed once, and each live one counts its handles, those
held outside and those that live objects hold. -/
structure Balanced (h : Heap) (outside : List Nat) : Prop where
  once (a : Nat) :
    h.addresses.count a + (h.closed.map Prod.fst).count a = if a < h.next then 1 else 0
  counted (a : Nat) : h.count a = outside.count a + h.held.count a
  positive : ∀ c ∈ h.cells, 0 < c.count

variable {h : Heap} {outside others added : List Nat} {a b : Nat} {c : Cell} {f : Cell → Cell}
  {close : Nat → Except Error Unit}

lemma cell?_mem (hc : h.cell? a = some c) : c ∈ h.cells ∧ c.object.address = a :=
  ⟨List.mem_of_find?_eq_some hc, by simpa using List.find?_some hc⟩

lemma cell?_eq_none_iff : h.cell? a = none ↔ a ∉ h.addresses := by
  simp [cell?, addresses]

lemma exists_cell (ha : a ∈ h.addresses) : ∃ c, h.cell? a = some c :=
  Option.ne_none_iff_exists'.1 fun hn => cell?_eq_none_iff.1 hn ha

lemma cell?_of_mem (hn : h.addresses.Nodup) (hc : c ∈ h.cells) :
    h.cell? c.object.address = some c := by
  obtain ⟨d, hd⟩ := exists_cell (List.mem_map_of_mem hc)
  obtain ⟨hmem, he⟩ := cell?_mem hd
  rw [hd, List.inj_on_of_nodup_map hn hmem hc he]

lemma cell?_update (hf : ∀ d, d.object.address = a → (f d).object.address = a) (b : Nat) :
    (h.update a f).cell? b = (h.cell? b).map fun d => if b = a then f d else d := by
  have haddress (d : Cell) :
      (if d.object.address = a then f d else d).object.address = d.object.address := by
    split_ifs with hd
    · rw [hf d hd, hd]
    · rfl
  simp only [cell?, update, List.find?_map, Function.comp_def, haddress]
  refine Option.map_congr fun d hd => ?_
  have hb : d.object.address = b := by simpa using List.find?_some hd
  rw [hb]

lemma cell?_remove (b : Nat) :
    (h.remove close a).cell? b = if b = a then none else h.cell? b := by
  simp only [cell?, remove, List.find?_filter]
  split_ifs with hb
  · subst hb
    simp
  · congr 1
    funext d
    by_cases hd : d.object.address = b
    · simp [hd, hb]
    · simp [hd]

lemma addresses_update (hf : ∀ d, d.object.address = a → (f d).object.address = a) :
    (h.update a f).addresses = h.addresses := by
  rw [addresses, addresses, update, List.map_map]
  refine List.map_congr_left fun d _ => ?_
  rw [Function.comp_apply]
  split_ifs with hd
  · rw [hf d hd, hd]
  · rfl

lemma addresses_remove : (h.remove close a).addresses = h.addresses.filter (· ≠ a) := by
  rw [addresses, addresses, List.filter_map]
  rfl

lemma cell?_add (hc : c.object.address ∉ h.addresses) (b : Nat) :
    (h.add c).cell? b = if b = c.object.address then some c else h.cell? b := by
  rw [cell?, add, List.find?_append]
  split_ifs with hb
  · have hnone : h.cell? b = none := cell?_eq_none_iff.2 (hb ▸ hc)
    rw [cell?] at hnone
    rw [hnone, Option.none_or, List.find?_cons_of_pos (by simp [hb])]
  · rw [List.find?_cons_of_neg (by simpa using Ne.symm hb), List.find?_nil, Option.or_none]
    rfl

lemma addresses_add (c : Cell) : (h.add c).addresses = h.addresses ++ [c.object.address] := by
  rw [addresses, addresses, add, List.map_append, List.map_singleton]

lemma held_add (c : Cell) : (h.add c).held = h.held ++ c.handles := by
  rw [held, held, add, List.flatMap_append, List.flatMap_singleton]

lemma update_add (hc : c.object.address ∉ h.addresses) (f : Cell → Cell) :
    (h.add c).update c.object.address f = h.add (f c) := by
  have hkeep : (h.cells.map fun d => if d.object.address = c.object.address then f d else d) =
      h.cells := by
    conv_rhs => rw [← List.map_id h.cells]
    exact List.map_congr_left fun d hd => if_neg fun he => hc (List.mem_map.2 ⟨d, hd, he⟩)
  rw [update, add, List.map_append, hkeep, List.map_singleton, if_pos rfl]
  rfl

lemma exists_split (hn : h.addresses.Nodup) (hc : h.cell? a = some c) :
    ∃ before after, h.cells = before ++ c :: after ∧
      ∀ d ∈ before ++ after, d.object.address ≠ a := by
  obtain ⟨hmem, rfl⟩ := cell?_mem hc
  obtain ⟨before, after, hs⟩ := List.append_of_mem hmem
  refine ⟨before, after, hs, fun d hd he => ?_⟩
  rw [addresses, hs, List.map_append, List.map_cons, List.nodup_middle, List.nodup_cons,
    ← List.map_append] at hn
  exact hn.1 (he ▸ List.mem_map_of_mem hd)

lemma held_update (hn : h.addresses.Nodup) (hc : h.cell? a = some c) :
    (c.handles ++ (h.update a f).held).Perm ((f c).handles ++ h.held) := by
  obtain ⟨before, after, hs, ho⟩ := exists_split hn hc
  have hkeep (ds : List Cell) (hd : ∀ d ∈ ds, d.object.address ≠ a) :
      ds.map (fun d => if d.object.address = a then f d else d) = ds := by
    conv_rhs => rw [← List.map_id ds]
    exact List.map_congr_left fun d hmem => if_neg (hd d hmem)
  obtain ⟨hb, ha⟩ := List.forall_mem_append.1 ho
  have hcells : (h.update a f).cells = before ++ f c :: after := by
    rw [update, hs]
    dsimp only
    rw [List.map_append, List.map_cons, hkeep before hb, hkeep after ha, if_pos (cell?_mem hc).2]
  rw [held, held, hcells, hs]
  refine List.perm_iff_count.2 fun x => ?_
  simp only [List.flatMap_append, List.flatMap_cons, List.count_append]
  omega

lemma held_remove (close : Nat → Except Error Unit) (hn : h.addresses.Nodup)
    (hc : h.cell? a = some c) :
    (c.handles ++ (h.remove close a).held).Perm h.held := by
  obtain ⟨before, after, hs, ho⟩ := exists_split hn hc
  have hkeep (ds : List Cell) (hd : ∀ d ∈ ds, d.object.address ≠ a) :
      ds.filter (fun d => d.object.address ≠ a) = ds :=
    List.filter_eq_self.2 fun d hmem => decide_eq_true (hd d hmem)
  obtain ⟨hb, ha⟩ := List.forall_mem_append.1 ho
  have hcells : (h.remove close a).cells = before ++ after := by
    rw [remove, hs]
    dsimp only
    rw [List.filter_append, List.filter_cons_of_neg (by simpa using (cell?_mem hc).2),
      hkeep before hb, hkeep after ha]
  rw [held, held, hcells, hs]
  refine List.perm_iff_count.2 fun x => ?_
  simp only [List.flatMap_append, List.flatMap_cons, List.count_append]
  omega

lemma addresses_retainAll (added : List Nat) : (h.retainAll added).addresses = h.addresses := by
  induction added generalizing h with
  | nil => rfl
  | cons a added ih => exact ih.trans (addresses_update fun _ => id)

lemma next_retainAll (added : List Nat) : (h.retainAll added).next = h.next := by
  induction added generalizing h with
  | nil => rfl
  | cons a added ih => exact ih

lemma retain_retain (a b : Nat) : (h.retain a).retain b = (h.retain b).retain a := by
  unfold retain Heap.update
  simp only [List.map_map]
  congr 2
  funext c
  simp only [Function.comp_apply]
  split_ifs <;> simp_all

lemma retainAll_retain (a : Nat) (added : List Nat) :
    (h.retain a).retainAll added = (h.retainAll added).retain a := by
  induction added generalizing h with
  | nil => rfl
  | cons b added ih =>
    change ((h.retain a).retain b).retainAll added = ((h.retain b).retainAll added).retain a
    rw [retain_retain, ih]

lemma release_nil (close : Nat → Except Error Unit) (h : Heap) : h.release close [] = h := by
  rw [Heap.release]

lemma release_of_shared (hc : h.cell? a = some c) (hmore : ¬c.count ≤ 1) (rest : List Nat) :
    h.release close (a :: rest) =
      (h.update a fun c => { c with count := c.count - 1 }).release close rest := by
  rw [Heap.release]
  split
  · next hnone => cases hc.symm.trans hnone
  · next d hd =>
    cases hc.symm.trans hd
    rw [if_neg hmore]

/-- A handle that was just taken is not the last one. -/
lemma release_retain (hc : h.cell? a = some c) (hpos : 0 < c.count) (rest : List Nat) :
    (h.retain a).release close (a :: rest) = h.release close rest := by
  have hf : ∀ d : Cell, d.object.address = a →
      { d with count := d.count + 1 : Cell }.object.address = a := fun _ => id
  have hcell : (h.retain a).cell? a = some { c with count := c.count + 1 } := by
    rw [retain, cell?_update hf, hc, Option.map_some, if_pos rfl]
  have hcells : ((h.retain a).update a fun d => { d with count := d.count - 1 }).cells =
      h.cells := by
    unfold retain Heap.update
    rw [List.map_map]
    conv_rhs => rw [← List.map_id h.cells]
    refine List.map_congr_left fun d _ => ?_
    by_cases hd : d.object.address = a
    · rw [Function.comp_apply, if_pos hd, if_pos hd]
      rfl
    · rw [Function.comp_apply, if_neg hd, if_neg hd]
      rfl
  have hback : (h.retain a).update a (fun d => { d with count := d.count - 1 }) = h :=
    congrArg (fun cells => (⟨cells, h.next, h.closed⟩ : Heap)) hcells
  rw [release_of_shared hcell (by simpa using Nat.ne_of_gt hpos), hback]

lemma positive_retainAll (hpos : ∀ c ∈ h.cells, 0 < c.count) (added : List Nat) :
    ∀ c ∈ (h.retainAll added).cells, 0 < c.count := by
  induction added generalizing h with
  | nil => exact hpos
  | cons a added ih =>
    refine ih fun c hc => ?_
    obtain ⟨d, hd, rfl⟩ := List.mem_map.1 hc
    split_ifs
    · exact Nat.succ_pos _
    · exact hpos d hd

lemma retainAll_release (hpos : ∀ c ∈ h.cells, 0 < c.count)
    (ha : ∀ a ∈ added, a ∈ h.addresses) : (h.retainAll added).release close added = h := by
  induction added with
  | nil => exact release_nil close h
  | cons a added ih =>
    obtain ⟨ha, hadded⟩ := List.forall_mem_cons.1 ha
    change ((h.retain a).retainAll added).release close (a :: added) = h
    obtain ⟨c, hc⟩ := exists_cell ((addresses_retainAll added).symm ▸ ha)
    rw [retainAll_retain, release_retain hc (positive_retainAll hpos added c (cell?_mem hc).1)]
    exact ih hadded

namespace Balanced

lemma nodup (hb : h.Balanced outside) : h.addresses.Nodup := by
  refine List.nodup_iff_count_le_one.2 fun a => ?_
  have := hb.once a
  split_ifs at this <;> omega

lemma lt_next (hb : h.Balanced outside) (ha : a ∈ h.addresses) : a < h.next := by
  have hpos := List.count_pos_iff.2 ha
  have := hb.once a
  split_ifs at this with hlt
  · exact hlt
  · omega

lemma alive (hb : h.Balanced outside) (ha : a ∈ outside ++ h.held) : a ∈ h.addresses := by
  by_contra hn
  have hzero : h.count a = 0 := by rw [count, cell?_eq_none_iff.2 hn]; rfl
  have hpos := List.count_pos_iff.2 ha
  rw [List.count_append, ← hb.counted, hzero] at hpos
  exact Nat.lt_irrefl 0 hpos

lemma perm (hb : h.Balanced outside) (hp : outside.Perm others) : h.Balanced others :=
  ⟨hb.once, fun a => by rw [hb.counted, hp.count_eq], hb.positive⟩

lemma empty : Heap.empty.Balanced [] :=
  ⟨fun a => by simp [Heap.empty, addresses], fun a => by simp [Heap.empty, count, cell?, held],
    nofun⟩

/-! ### Taking and dropping handles -/

/-- A cell is changed that counts the handles which are held then. -/
lemma update (hb : h.Balanced outside) (hc : h.cell? a = some c)
    (hf : ∀ d, d.object.address = a → (f d).object.address = a) (hpos : 0 < (f c).count)
    (hcount : ∀ x, (if x = a then (f c).count else 0) + outside.count x + c.handles.count x =
      (if x = a then c.count else 0) + others.count x + (f c).handles.count x) :
    (h.update a f).Balanced others := by
  constructor
  · intro x
    rw [addresses_update hf]
    exact hb.once x
  · intro x
    have hheld := (held_update (f := f) hb.nodup hc).count_eq x
    have hx := hb.counted x
    have hcx := hcount x
    rw [List.count_append, List.count_append] at hheld
    rw [count, cell?_update hf]
    rw [count] at hx
    by_cases hxa : x = a
    · subst hxa
      rw [hc] at hx ⊢
      simp only [Option.map_some, Option.getD_some, if_pos] at hx hcx ⊢
      omega
    · simp only [if_neg hxa] at hcx ⊢
      rw [Option.map_id']
      omega
  · intro d hd
    obtain ⟨e, he, rfl⟩ := List.mem_map.1 hd
    split_ifs with hea
    · have : e = c := Option.some.inj (by rw [← hc, ← hea, cell?_of_mem hb.nodup he])
      exact this ▸ hpos
    · exact hb.positive e he

lemma retain (hb : h.Balanced outside) (ha : a ∈ h.addresses) :
    (h.retain a).Balanced (a :: outside) := by
  obtain ⟨c, hc⟩ := exists_cell ha
  refine hb.update hc (fun _ => id) (Nat.succ_pos _) fun x => ?_
  rw [List.count_cons]
  have hcomm : (a == x) = true ↔ x = a := by rw [beq_iff_eq, eq_comm]
  change _ = _ + c.handles.count x
  simp only [hcomm]
  split_ifs <;> omega

lemma retainAll (hb : h.Balanced outside) (ha : ∀ a ∈ added, a ∈ h.addresses) :
    (h.retainAll added).Balanced (added ++ outside) := by
  induction added generalizing h outside with
  | nil => exact hb
  | cons a added ih =>
    obtain ⟨ha, hadded⟩ := List.forall_mem_cons.1 ha
    have hkept : (h.retain a).addresses = h.addresses := addresses_retainAll [a]
    have := ih (hb.retain ha) (by rwa [hkept])
    exact this.perm List.perm_middle

/-- The last handle to an object is dropped, and those that the object holds are left over. -/
lemma remove (hb : h.Balanced (a :: outside)) (hc : h.cell? a = some c) (hlast : c.count ≤ 1) :
    (h.remove close a).Balanced (c.handles ++ outside) := by
  have hheld (x : Nat) := (held_remove close hb.nodup hc).count_eq x
  simp only [List.count_append] at hheld
  constructor
  · intro x
    have honce := hb.once x
    change _ + List.count x ((h.closed ++ [(a, close a)]).map Prod.fst) =
      if x < h.next then 1 else 0
    rw [addresses_remove]
    simp only [List.map_append, List.map_cons, List.map_nil, List.count_append,
      List.count_singleton, beq_iff_eq]
    by_cases hxa : x = a
    · have hmem : x ∈ h.addresses := hxa ▸ (cell?_mem hc).2 ▸ List.mem_map_of_mem (cell?_mem hc).1
      have hone := List.nodup_iff_count_eq_one.1 hb.nodup x hmem
      have hnone : x ∉ h.addresses.filter (· ≠ a) := by simp [hxa]
      rw [List.count_eq_zero_of_not_mem hnone, if_pos hxa.symm]
      omega
    · have hne : a ≠ x := Ne.symm hxa
      rw [List.count_filter (by simpa using hxa), if_neg hne]
      exact honce
  · intro x
    have hx := hb.counted x
    have hcx := hheld x
    rw [count, cell?_remove, List.count_append]
    rw [count, List.count_cons] at hx
    by_cases hxa : x = a
    · subst hxa
      rw [hc] at hx
      simp only [Option.map_some, Option.getD_some, beq_self_eq_true, if_pos] at hx
      rw [if_pos rfl]
      simp only [Option.map_none, Option.getD_none]
      omega
    · have hne : ¬(a == x) = true := by simpa using Ne.symm hxa
      rw [if_neg hne] at hx
      rw [if_neg hxa]
      omega
  · exact fun d hd => hb.positive d (List.mem_of_mem_filter hd)

/-- Dropping handles leaves the others counted. -/
theorem release (hb : h.Balanced (added ++ outside)) :
    (h.release close added).Balanced outside := by
  fun_induction Heap.release close h added with
  | case1 h => exact hb
  | case2 h a rest hnone ih =>
    exact absurd (hb.alive (by simp)) (cell?_eq_none_iff.1 hnone)
  | case3 h a rest c hc hlast ih =>
    refine ih ?_
    rw [List.append_assoc]
    exact hb.remove hc hlast
  | case4 h a rest c hc hlast ih =>
    refine ih (hb.update hc (fun _ => id) (Nat.sub_pos_of_lt (Nat.lt_of_not_le hlast)) fun x => ?_)
    have hcomm : (a == x) = true ↔ x = a := by rw [beq_iff_eq, eq_comm]
    change _ = _ + c.handles.count x
    rw [List.cons_append, List.count_cons]
    simp only [hcomm]
    split_ifs <;> omega

/-- A new object with handles of its own, of which the caller gets the only one. -/
lemma add (hb : h.Balanced (c.handles ++ outside)) (ha : c.object.address = h.next)
    (hc : c.count = 1) :
    (h.add c).Balanced (h.next :: outside) := by
  have hfresh : h.next ∉ h.addresses := fun hmem => Nat.lt_irrefl _ (hb.lt_next hmem)
  constructor
  · intro x
    have honce := hb.once x
    change _ + List.count x (h.closed.map Prod.fst) = if x < h.next + 1 then 1 else 0
    rw [addresses_add, List.count_append, List.count_singleton, ha]
    simp only [beq_iff_eq]
    split_ifs at honce ⊢ <;> omega
  · intro x
    have hx := hb.counted x
    rw [count, cell?_add (ha ▸ hfresh), ha, held_add, List.count_append, List.count_cons]
    rw [count, List.count_append] at hx
    simp only [beq_iff_eq]
    by_cases hxn : x = h.next
    · subst hxn
      rw [cell?_eq_none_iff.2 hfresh] at hx
      simp only [Option.map_none, Option.getD_none] at hx
      simp only [if_pos, Option.map_some, Option.getD_some, hc]
      omega
    · rw [if_neg hxn, if_neg (Ne.symm hxn)]
      omega
  · intro d hd
    obtain hd | hd := List.mem_append.1 hd
    · exact hb.positive d hd
    · rw [List.mem_singleton.1 hd, hc]
      exact Nat.one_pos

end Balanced

end TransactionEngine.Heap
