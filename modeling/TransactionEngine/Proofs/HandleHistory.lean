import TransactionEngine.Proofs.HeapViews

/-!
# Calls on handles

Objects are made under labels, handles to them are cloned and dropped, and values are passed on to
sets. After any calls that name live objects all handles are counted, every reference is to a live
object, and a search meets each member of a set at a level of its own.
-/

namespace TransactionEngine

/-- The members of a set, and none of other objects. -/
def Object.members : Object → List Value
  | .set _ members => members
  | _ => []

/-- All of a cell but the number of handles. -/
def Cell.body (c : Cell) : Object × List Nat × List Nat :=
  (c.object, c.levels, c.hidden)

/-- The cell of a set that was given other members. -/
def Cell.refill (address : Nat) (members : List Value) (levels : List Nat) (c : Cell) : Cell :=
  { c with object := .set address members, levels }

namespace Heap

/-- All handles are counted, references are to live objects, and every member has its level. -/
structure Kept (h : Heap) (outside : List Nat) : Prop extends h.Balanced outside where
  refers : ∀ c ∈ h.cells, ∀ o ∈ Value.objectsOf c.object.members, h.Refers o
  levels : ∀ c ∈ h.cells, c.levels.length = c.object.members.length

/-- All that is alive in the second heap is as it was in the first one. -/
def Remains (h h' : Heap) : Prop :=
  ∀ c ∈ h'.cells, h.object? c.object.address = some c.object

variable {h h' : Heap} {outside others added : List Nat} {a b : Nat} {c : Cell} {o : Object}
  {close : Nat → Except Error Unit}

lemma members_eq (h : Heap) (a : Nat) :
    h.members a = ((h.object? a).map Object.members).getD [] := by
  rw [members, object?]
  cases h.cell? a with
  | none => rfl
  | some c => cases hc : c.object <;> simp [hc, Object.members]

lemma handles_object (o : Object) : o.handles = Value.handlesOf o.members := by
  cases o <;> rfl

lemma object?_of_mem (hn : h.addresses.Nodup) (hc : c ∈ h.cells) :
    h.object? c.object.address = some c.object := by
  rw [object?, cell?_of_mem hn hc]
  rfl

lemma exists_of_object? (ho : h.object? a = some o) :
    ∃ c ∈ h.cells, c.object = o ∧ o.address = a := by
  obtain ⟨c, hc, rfl⟩ := Option.map_eq_some_iff.1 ho
  exact ⟨c, (cell?_mem hc).1, rfl, (cell?_mem hc).2⟩

lemma exists_object (ha : a ∈ h.addresses) :
    ∃ c ∈ h.cells, c.object.address = a ∧ h.object? a = some c.object := by
  obtain ⟨c, hc⟩ := exists_cell ha
  obtain ⟨hmem, hca⟩ := cell?_mem hc
  exact ⟨c, hmem, hca, by rw [object?, hc]; rfl⟩

lemma Remains.refers (hr : h.Remains h') (ho : h.Refers o) (ha : o.address ∈ h'.addresses) :
    h'.Refers o := by
  obtain ⟨c, hc, hca, hnow⟩ := exists_object ha
  have hold := hr c hc
  rw [hca] at hold
  rwa [Refers, hnow, ← hold]

lemma retain_cells (hc : c ∈ (h.retain a).cells) : ∃ d ∈ h.cells, d.body = c.body := by
  obtain ⟨d, hd, rfl⟩ := List.mem_map.1 hc
  refine ⟨d, hd, ?_⟩
  split_ifs <;> rfl

lemma retainAll_cells (hc : c ∈ (h.retainAll added).cells) : ∃ d ∈ h.cells, d.body = c.body := by
  induction added generalizing h with
  | nil => exact ⟨c, hc, rfl⟩
  | cons a added ih =>
    obtain ⟨d, hd, hbody⟩ := ih hc
    obtain ⟨e, he, hbody'⟩ := retain_cells hd
    exact ⟨e, he, hbody'.trans hbody⟩

lemma release_cells (hc : c ∈ (h.release close added).cells) :
    ∃ d ∈ h.cells, d.body = c.body := by
  fun_induction release close h added with
  | case1 h => exact ⟨c, hc, rfl⟩
  | case2 h a rest hnone ih => exact ih hc
  | case3 h a rest d hd hlast ih =>
    obtain ⟨e, he, hbody⟩ := ih hc
    exact ⟨e, List.mem_of_mem_filter he, hbody⟩
  | case4 h a rest d hd hlast ih =>
    obtain ⟨e, he, hbody⟩ := ih hc
    obtain ⟨g, hg, rfl⟩ := List.mem_map.1 he
    refine ⟨g, hg, ?_⟩
    rw [← hbody]
    split_ifs <;> rfl

lemma remains_of_cells (hn : h.addresses.Nodup)
    (hcells : ∀ c ∈ h'.cells, ∃ d ∈ h.cells, d.body = c.body) : h.Remains h' := by
  intro c hc
  obtain ⟨d, hd, hbody⟩ := hcells c hc
  have ho : d.object = c.object := congrArg Prod.fst hbody
  rw [← ho, object?_of_mem hn hd]

lemma object?_retainAll (added : List Nat) (b : Nat) :
    (h.retainAll added).object? b = h.object? b := by
  induction added generalizing h with
  | nil => rfl
  | cons a added ih =>
    have hf : ∀ d : Cell, d.object.address = a →
        { d with count := d.count + 1 : Cell }.object.address = a := fun _ => id
    refine ih.trans ?_
    rw [object?, retain, cell?_update hf, Option.map_map, object?]
    refine Option.map_congr fun d _ => ?_
    rw [Function.comp_apply]
    split_ifs <;> rfl

lemma compare_retainAll (added : List Nat) : (h.retainAll added).compare = h.compare := by
  have hmembers (a : Nat) : (h.retainAll added).members a = h.members a := by
    rw [members_eq, members_eq, object?_retainAll]
  have hlength : (h.retainAll added).cells.length = h.cells.length := by
    have := congrArg List.length (addresses_retainAll (h := h) added)
    rwa [addresses, addresses, List.length_map, List.length_map] at this
  have hto (n : Nat) : (h.retainAll added).compareTo n = h.compareTo n := by
    induction n with
    | zero => rfl
    | succ n ih =>
      funext o p
      simp only [compareTo, ih, hmembers]
  rw [compare, compareObjects, depth, hlength, hto]
  rfl

namespace Kept

lemma of_cells (hk : h.Kept outside) (hb : h'.Balanced others)
    (hcells : ∀ c ∈ h'.cells, ∃ d ∈ h.cells, d.body = c.body) : h'.Kept others := by
  refine ⟨hb, fun c hc o ho => ?_, fun c hc => ?_⟩
  · obtain ⟨d, hd, hbody⟩ := hcells c hc
    have hobject : d.object = c.object := congrArg Prod.fst hbody
    refine (remains_of_cells hk.nodup hcells).refers (hk.refers d hd o (hobject ▸ ho)) ?_
    refine hb.alive (List.mem_append_right _ (List.mem_flatMap.2 ⟨c, hc, ?_⟩))
    rw [Cell.handles, handles_object, Value.handlesOf_eq]
    exact List.mem_append_left _ (List.mem_map_of_mem ho)
  · obtain ⟨d, hd, hbody⟩ := hcells c hc
    have hobject : d.object = c.object := congrArg Prod.fst hbody
    have hlevels : d.levels = c.levels := congrArg (fun b => b.2.1) hbody
    rw [← hobject, ← hlevels, hk.levels d hd]

lemma perm (hk : h.Kept outside) (hp : outside.Perm others) : h.Kept others :=
  ⟨hk.toBalanced.perm hp, hk.refers, hk.levels⟩

lemma retainAll (hk : h.Kept outside) (ha : ∀ a ∈ added, a ∈ h.addresses) :
    (h.retainAll added).Kept (added ++ outside) :=
  hk.of_cells (hk.toBalanced.retainAll ha) fun _ => retainAll_cells

lemma release (hk : h.Kept (added ++ outside)) : (h.release close added).Kept outside :=
  hk.of_cells hk.toBalanced.release fun _ => release_cells

lemma add (hk : h.Kept (c.handles ++ outside)) (ha : c.object.address = h.next) (hc : c.count = 1)
    (hrefers : ∀ o ∈ Value.objectsOf c.object.members, h.Refers o)
    (hlevels : c.levels.length = c.object.members.length) :
    (h.add c).Kept (h.next :: outside) := by
  have hfresh : c.object.address ∉ h.addresses := fun hmem =>
    Nat.lt_irrefl _ (ha ▸ hk.lt_next hmem)
  have hold {o : Object} (ho : h.Refers o) : (h.add c).Refers o := by
    have hne : o.address ≠ c.object.address := fun he => hfresh (he ▸ ho.alive)
    rw [Refers, object?, cell?_add hfresh, if_neg hne]
    exact ho
  refine ⟨hk.toBalanced.add ha hc, ?_, ?_⟩
  · refine List.forall_mem_append.2 ⟨fun d hd o ho => hold (hk.refers d hd o ho), ?_⟩
    exact List.forall_mem_singleton.2 fun o ho => hold (hrefers o ho)
  · exact List.forall_mem_append.2 ⟨hk.levels, List.forall_mem_singleton.2 hlevels⟩

/-- A set that is given one more member takes over the handles of that member. -/
lemma refill {v : Value} {smaller larger : List Value} {levels : List Nat}
    (hk : h.Kept (v.handles ++ outside)) (hc : h.cell? a = some c)
    (hset : c.object = .set a (smaller ++ larger)) (hv : ∀ o ∈ v.objects, h.Refers o)
    (hl : levels.length = (smaller ++ v :: larger).length) :
    (h.update a (Cell.refill a (smaller ++ v :: larger) levels)).Kept outside := by
  have hmem := cell?_mem hc
  have hmembers : c.object.members = smaller ++ larger := by rw [hset]; rfl
  have hsame {d : Cell} (hd : d ∈ h.cells) (ha : d.object.address = a) : d = c :=
    List.inj_on_of_nodup_map hk.nodup hd hmem.1 (ha.trans hmem.2.symm)
  have hf : ∀ d : Cell, d.object.address = a →
      (d.refill a (smaller ++ v :: larger) levels).object.address = a := fun _ _ => rfl
  -- A reference to a set does not show its members.
  have hrefers {o : Object} (ho : h.Refers o) :
      Refers (h.update a (Cell.refill a (smaller ++ v :: larger) levels)) o := by
    rw [Refers, object?, cell?_update hf]
    by_cases hoa : o.address = a
    · rw [Refers, object?, hoa, hc, Option.map_some, hset] at ho
      rw [hoa, hc, ← ho]
      simp only [if_pos, Option.map_some]
      rfl
    · simp only [if_neg hoa, Option.map_id']
      exact ho
  refine ⟨hk.toBalanced.update hc hf (hk.positive c hmem.1) fun x => ?_, ?_, ?_⟩
  · have hhandles : c.handles = Value.handlesOf (smaller ++ larger) ++ c.hidden := by
      rw [Cell.handles, handles_object, hmembers]
    change _ = _ + List.count x (Value.handlesOf (smaller ++ v :: larger) ++ c.hidden)
    rw [hhandles]
    simp only [Value.handlesOf_eq_flatMap, List.flatMap_append, List.flatMap_cons,
      List.count_append, Cell.refill]
    omega
  · intro e he o ho
    obtain ⟨d, hd, rfl⟩ := List.mem_map.1 he
    refine hrefers ?_
    split_ifs at ho with hda
    · change o ∈ Value.objectsOf (smaller ++ v :: larger) at ho
      have hold := hk.refers c hmem.1
      rw [hmembers] at hold
      simp only [Value.objectsOf_eq_flatMap, List.flatMap_append, List.flatMap_cons,
        List.mem_append] at ho hold
      obtain ho | ho | ho := ho
      · exact hold o (.inl ho)
      · exact hv o ho
      · exact hold o (.inr ho)
    · exact hk.refers d hd o ho
  · intro e he
    obtain ⟨d, hd, rfl⟩ := List.mem_map.1 he
    split_ifs with hda
    · exact hl
    · exact hk.levels d hd

end Kept

end Heap

namespace Handles

open Heap

/-- The handles that are held under labels, and some spare ones. -/
structure Kept (s : Handles) (spare : List Nat) : Prop where
  heap : s.heap.Kept (spare ++ s.labels.map Prod.snd)
  labels : (s.labels.map Prod.fst).Nodup

/-- A call on handles. An object of a type that is defined elsewhere takes handles of its own to the
objects at `hidden` addresses. -/
inductive Call where
  | connection (label : String) (id : UInt64)
  | plugin (label : String) (type : String) (hidden : List Nat)
  | set (label : String) (items : List Value)
  | clone (source target : String)
  | drop (label : String)
  | insert (label : String) (v : Value)

variable {s : Handles} {spare : List Nat} (close : Nat → Except Error Unit)

def perform (close : Nat → Except Error Unit) (s : Handles) : Call → Handles
  | .connection label id => (s.create close label (.connection · id) []).2
  | .plugin label type hidden => (s.create close label (.plugin · type) hidden).2
  | .set label items => (s.createSet close label items).2
  | .clone source target => s.clone close source target
  | .drop label => (s.drop close label).2
  | .insert label v => ((s.insert close label v).map Prod.snd).getD s

/-- The handles after calls. -/
def after (close : Nat → Except Error Unit) (calls : List Call) : Handles :=
  calls.foldl (perform close) empty

/-- The objects that a call names are alive. -/
def Call.Names (h : Heap) : Call → Prop
  | .plugin _ _ hidden => ∀ a ∈ hidden, a ∈ h.addresses
  | .set _ items => ∀ v ∈ items, h.Knows (v.mapObjects Object.bare)
  | .insert _ v => h.Knows (v.mapObjects Object.bare)
  | _ => True

lemma perm_of_lookup {labels : List (String × Nat)} {label : String} {a : Nat}
    (hn : (labels.map Prod.fst).Nodup) (ha : labels.lookup label = some a) :
    (labels.map Prod.snd).Perm
      (a :: (labels.filter fun (l, _) => l ≠ label).map Prod.snd) := by
  induction labels with
  | nil => cases ha
  | cons entry labels ih =>
    obtain ⟨l, b⟩ := entry
    obtain ⟨hfresh, hn⟩ := List.nodup_cons.1 hn
    rw [List.lookup_cons] at ha
    by_cases hl : label = l
    · subst hl
      rw [beq_self_eq_true] at ha
      cases ha
      have hkept : (labels.filter fun (l, _) => l ≠ label) = labels := by
        refine List.filter_eq_self.2 fun entry hmem => decide_eq_true fun he => hfresh ?_
        exact List.mem_map.2 ⟨entry, hmem, he⟩
      rw [List.filter_cons_of_neg (by simp), hkept, List.map_cons]
    · rw [beq_eq_false_iff_ne.2 hl] at ha
      rw [List.filter_cons_of_pos (by simpa using Ne.symm hl), List.map_cons, List.map_cons]
      exact ((ih hn ha).cons b).trans (List.Perm.swap a b _)

/-- Dropping the handle of a label leaves everything that is still held as it was. -/
lemma Kept.drop (hk : s.Kept spare) (label : String) :
    (s.drop close label).2.Kept spare ∧ label ∉ (s.drop close label).2.labels.map Prod.fst ∧
      s.heap.Remains (s.drop close label).2.heap := by
  rw [Handles.drop]
  cases ha : s.labels.lookup label with
  | none =>
    refine ⟨hk, fun hmem => ?_, fun c hc => object?_of_mem hk.heap.nodup hc⟩
    obtain ⟨entry, hentry, he⟩ := List.mem_map.1 hmem
    have hne := List.lookup_eq_none_iff.1 ha entry hentry
    rw [he, bne_self_eq_false] at hne
    cases hne
  | some a =>
    have hperm : (spare ++ s.labels.map Prod.snd).Perm
        ([a] ++ (spare ++ (s.labels.filter fun (l, _) => l ≠ label).map Prod.snd)) :=
      ((perm_of_lookup hk.labels ha).append_left spare).trans List.perm_middle
    refine ⟨⟨(hk.heap.perm hperm).release, ?_⟩, ?_, ?_⟩
    · exact hk.labels.sublist (List.filter_sublist.map _)
    · simp
    · exact remains_of_cells hk.heap.nodup fun _ => release_cells

lemma Kept.put {a : Nat} (hk : s.Kept (a :: spare)) (label : String) :
    (s.put close label a).Kept spare ∧ s.heap.Remains (s.put close label a).heap := by
  obtain ⟨hd, hfresh, hr⟩ := hk.drop close label
  exact ⟨⟨hd.heap.perm List.perm_middle.symm, List.nodup_cons.2 ⟨hfresh, hd.labels⟩⟩, hr⟩

/-! ### What a call can do -/

/-- The members that a new set gets, with their levels. -/
def collect (h : Heap) (items : List Value) : List Member :=
  items.foldl (fun members v =>
    (Member.insert h.compare (v.mapObjects Object.bare) members).getD members) []

/-- The members of the object that a call makes. -/
def Call.brings (h : Heap) : Call → List Value
  | .set _ items => (collect h items).map Member.value
  | _ => []

/-- A value is put among the members of one set, and no other object is changed or closed. -/
structure Puts (h : Heap) (a : Nat) (v : Value) (ms now : List Member) (h' : Heap) : Prop where
  object : h.object? a = some (.set a (ms.map Member.value))
  insert : Member.insert h.compare v ms = some now
  cells : ∀ c ∈ h'.cells, c.object.address ≠ a ∧ h.object? c.object.address = some c.object ∨
    c.object = .set a (now.map Member.value)
  addresses : h'.addresses = h.addresses

/-- What a call can do to the objects that stay alive. A call that passes no value on changes none, and
can make a new one. -/
inductive Changes (h : Heap) : Call → Heap → Prop
  | other {call : Call} {h' : Heap} (hcall : ∀ label v, call ≠ .insert label v)
      (hcells : ∀ c ∈ h'.cells, h.object? c.object.address = some c.object ∨
        c.object.address = h.next ∧ c.object.members = call.brings h) : Changes h call h'
  | refused {label : String} {v : Value} {h' : Heap} (hr : h.Remains h')
      (ha : h'.addresses = h.addresses) : Changes h (.insert label v) h'
  | put {label : String} {v : Value} {h' : Heap} {a : Nat} {ms now : List Member}
      (hp : Puts h a (v.mapObjects Object.bare) ms now h') : Changes h (.insert label v) h'

lemma mem_collect {h : Heap} {items : List Value} {m : Value}
    (hm : m ∈ (collect h items).map Member.value) :
    ∃ v ∈ items, m = v.mapObjects Object.bare := by
  induction items using List.reverseRecOn with
  | nil => cases hm
  | append_singleton items v ih =>
    rw [collect, List.foldl_append, List.foldl_cons, List.foldl_nil, ← collect] at hm
    cases hi : Member.insert h.compare (v.mapObjects Object.bare) (collect h items) with
    | none =>
      rw [hi] at hm
      obtain ⟨w, hw, he⟩ := ih hm
      exact ⟨w, List.mem_append_left _ hw, he⟩
    | some now =>
      obtain ⟨smaller, larger, hl, hnow⟩ := Member.exists_append_of_insert hi
      rw [hi, Option.getD_some, hnow] at hm
      rw [hl] at ih
      simp only [List.mem_append, List.mem_cons] at hm ih ⊢
      obtain hm | rfl | hm := hm
      · obtain ⟨w, hw, he⟩ := ih (.inl hm)
        exact ⟨w, .inl hw, he⟩
      · exact ⟨v, .inr (.inl rfl), rfl⟩
      · obtain ⟨w, hw, he⟩ := ih (.inr hm)
        exact ⟨w, .inl hw, he⟩

/-- A new object under a label, with the handles that were taken for it. -/
lemma Kept.introduce {c : Cell} {added : List Nat} (hk : s.Kept [])
    (hadded : ∀ a ∈ added, a ∈ s.heap.addresses) (hh : c.handles = added)
    (ha : c.object.address = s.heap.next) (hc : c.count = 1)
    (hrefers : ∀ o ∈ Value.objectsOf c.object.members, s.heap.Refers o)
    (hlevels : c.levels.length = c.object.members.length) (label : String) :
    let t := Handles.put close ⟨(s.heap.retainAll added).add c, s.labels⟩ label s.heap.next
    t.Kept [] ∧ ∀ d ∈ t.heap.cells,
      s.heap.object? d.object.address = some d.object ∨ d.object = c.object := by
  subst hh
  have hnext : (s.heap.retainAll c.handles).next = s.heap.next := next_retainAll c.handles
  have hremains : s.heap.Remains (s.heap.retainAll c.handles) :=
    remains_of_cells hk.heap.nodup fun _ => retainAll_cells
  have hheap : ((s.heap.retainAll c.handles).add c).Kept
      (s.heap.next :: s.labels.map Prod.snd) := by
    rw [← hnext]
    refine (hk.heap.retainAll hadded).add (ha.trans hnext.symm) hc (fun o ho => ?_) hlevels
    have hr := hrefers o ho
    exact hremains.refers hr ((addresses_retainAll c.handles).symm ▸ hr.alive)
  have hs : Handles.Kept ⟨(s.heap.retainAll c.handles).add c, s.labels⟩ [s.heap.next] :=
    ⟨hheap, hk.labels⟩
  obtain ⟨hput, hr⟩ := hs.put close label
  refine ⟨hput, fun d hd => ?_⟩
  obtain ⟨e, he, hobject, -⟩ := exists_of_object? (hr d hd)
  obtain he | he := List.mem_append.1 he
  · exact .inl (hobject ▸ hremains e he)
  · exact .inr (by rw [← hobject, List.mem_singleton.1 he])

lemma handles_bare (v : Value) : (v.mapObjects Object.bare).handles = v.handles := by
  rw [Value.handles_eq, Value.handles_eq, Value.objects_mapObjects, List.map_map]
  exact List.map_congr_left fun o _ => by cases o <;> rfl

lemma create_eq (s : Handles) (label : String) (object : Nat → Object) (hidden : List Nat) :
    (s.create close label object hidden).2 = Handles.put close
      ⟨(s.heap.retainAll hidden).add ⟨object s.heap.next, [], 1, hidden⟩, s.labels⟩ label
      s.heap.next := by
  change Handles.put close ⟨(s.heap.retainAll hidden).add
    ⟨object (s.heap.retainAll hidden).next, [], 1, hidden⟩, s.labels⟩ label
    (s.heap.retainAll hidden).next = _
  rw [next_retainAll]

lemma Kept.createSet_eq (hk : s.Kept []) (label : String) (items : List Value) :
    let members := collect s.heap items
    let values := members.map Member.value
    (s.createSet close label items).2 = Handles.put close
      ⟨(s.heap.retainAll (Value.handlesOf values)).add
        ⟨.set s.heap.next values, members.map Member.level, 1, []⟩, s.labels⟩ label
      s.heap.next := by
  intro members values
  let h := s.heap.retainAll (Value.handlesOf values)
  have hfresh : s.heap.next ∉ h.addresses := fun hmem =>
    Nat.lt_irrefl _ (hk.heap.lt_next (addresses_retainAll _ ▸ hmem))
  change Handles.put close ⟨(h.add ⟨.set h.next values, [], 1, []⟩).update h.next _, s.labels⟩
    label h.next = _
  rw [show h.next = s.heap.next from next_retainAll _]
  exact congrArg (fun heap => Handles.put close ⟨heap, s.labels⟩ label s.heap.next)
    (update_add (c := ⟨.set s.heap.next values, [], 1, []⟩) hfresh _)

lemma Kept.create (hk : s.Kept []) (label : String) (object : Nat → Object) (hidden : List Nat)
    (hn : ∀ a ∈ hidden, a ∈ s.heap.addresses) (ha : ∀ a, (object a).address = a)
    (hm : ∀ a, (object a).members = []) :
    (s.create close label object hidden).2.Kept [] ∧
      ∀ d ∈ (s.create close label object hidden).2.heap.cells,
        s.heap.object? d.object.address = some d.object ∨
          d.object.address = s.heap.next ∧ d.object.members = [] := by
  let c : Cell := ⟨object s.heap.next, [], 1, hidden⟩
  have hmembers : c.object.members = [] := hm _
  have hhandles : c.handles = hidden := by
    rw [Cell.handles, handles_object, hmembers]
    rfl
  rw [create_eq close]
  obtain ⟨hkept, hcells⟩ := hk.introduce close (c := c) hn hhandles (ha _) rfl
    (by rw [hmembers]; nofun) (by rw [hmembers]; rfl) label
  exact ⟨hkept, fun d hd => (hcells d hd).imp_right fun he => by rw [he]; exact ⟨ha _, hmembers⟩⟩

lemma Kept.createSet (hk : s.Kept []) (label : String) {items : List Value}
    (hn : ∀ v ∈ items, s.heap.Knows (v.mapObjects Object.bare)) :
    (s.createSet close label items).2.Kept [] ∧
      ∀ d ∈ (s.createSet close label items).2.heap.cells,
        s.heap.object? d.object.address = some d.object ∨
          d.object.address = s.heap.next ∧
            d.object.members = (collect s.heap items).map Member.value := by
  let members := collect s.heap items
  let values := members.map Member.value
  let c : Cell := ⟨.set s.heap.next values, members.map Member.level, 1, []⟩
  have hhandles : c.handles = Value.handlesOf values := List.append_nil _
  have hrefers : ∀ o ∈ Value.objectsOf values, s.heap.Refers o := by
    intro o ho
    obtain ⟨m, hm, ho⟩ := Value.mem_objectsOf.1 ho
    obtain ⟨v, hv, rfl⟩ := mem_collect hm
    exact hn v hv o ho
  have halive : ∀ a ∈ Value.handlesOf values, a ∈ s.heap.addresses := by
    intro a ha
    rw [Value.handlesOf_eq] at ha
    obtain ⟨o, ho, rfl⟩ := List.mem_map.1 ha
    exact (hrefers o ho).alive
  have hlevels : c.levels.length = c.object.members.length := by
    change (members.map Member.level).length = (members.map Member.value).length
    rw [List.length_map, List.length_map]
  rw [hk.createSet_eq close]
  obtain ⟨hkept, hcells⟩ :=
    hk.introduce close (c := c) halive hhandles rfl rfl hrefers hlevels label
  exact ⟨hkept, fun d hd => (hcells d hd).imp_right fun he => by rw [he]; exact ⟨rfl, rfl⟩⟩

lemma Kept.clone (hk : s.Kept []) (source target : String) :
    (s.clone close source target).Kept [] ∧
      s.heap.Remains (s.clone close source target).heap := by
  rw [Handles.clone]
  cases ha : s.labels.lookup source with
  | none => exact ⟨hk, fun c hc => object?_of_mem hk.heap.nodup hc⟩
  | some a =>
    have hmem : a ∈ s.labels.map Prod.snd :=
      (perm_of_lookup hk.labels ha).mem_iff.2 List.mem_cons_self
    have halive : ∀ b ∈ [a], b ∈ s.heap.addresses :=
      List.forall_mem_singleton.2 (hk.heap.alive (List.mem_append_left _ hmem))
    have hs : Handles.Kept ⟨s.heap.retain a, s.labels⟩ [a] :=
      ⟨hk.heap.retainAll halive, hk.labels⟩
    obtain ⟨hput, hr⟩ := hs.put close target
    refine ⟨hput, fun c hc => ?_⟩
    obtain ⟨d, hd, hobject, -⟩ := exists_of_object? (hr c hc)
    exact hobject ▸ remains_of_cells hk.heap.nodup (fun _ => retain_cells) d hd

lemma perform_insert {label : String} {a : Nat} (ha : s.labels.lookup label = some a) (v : Value) :
    s.perform close (.insert label v) =
      ((s.heap.insert close a v).map fun r => { s with heap := r.2 }).getD s := by
  rw [perform, Handles.insert, ha]
  cases h : s.heap.insert close a v with
  | none => simp [h]
  | some r => simp [h]

lemma insert_of_cell? {h : Heap} {a n : Nat} {members : List Value} {levels hidden : List Nat}
    (hc : h.cell? a = some ⟨.set a members, levels, n, hidden⟩) (v : Value) :
    h.insert close a v =
      match Member.insert h.compare (v.mapObjects Object.bare)
        (List.zipWith Member.mk members levels) with
      | none => some (false, (h.retainAll v.handles).release close v.handles)
      | some now => some (true, (h.retainAll v.handles).update a
          (Cell.refill a (now.map Member.value) (now.map Member.level))) := by
  rw [Heap.insert, hc]
  dsimp only
  rw [compare_retainAll]
  rfl

lemma alive_of_knows {h : Heap} {v : Value} (hv : h.Knows (v.mapObjects Object.bare)) :
    ∀ a ∈ v.handles, a ∈ h.addresses := by
  intro a ha
  rw [← handles_bare, Value.handles_eq] at ha
  obtain ⟨o, ho, rfl⟩ := List.mem_map.1 ha
  exact (hv o ho).alive

lemma puts_of_insert {h : Heap} {outside : List Nat} {v : Value} {a : Nat} {ms now : List Member}
    (hk : h.Kept outside) (ho : h.object? a = some (.set a (ms.map Member.value)))
    (hv : h.Knows (v.mapObjects Object.bare))
    (hi : Member.insert h.compare (v.mapObjects Object.bare) ms = some now) :
    let h' := (h.retainAll v.handles).update a
      (Cell.refill a (now.map Member.value) (now.map Member.level))
    h'.Kept outside ∧ Puts h a (v.mapObjects Object.bare) ms now h' := by
  have hremains : h.Remains (h.retainAll v.handles) :=
    remains_of_cells hk.nodup fun _ => retainAll_cells
  have hf : ∀ d : Cell, d.object.address = a →
      (d.refill a (now.map Member.value) (now.map Member.level)).object.address = a :=
    fun _ _ => rfl
  refine ⟨?_, ho, hi, fun d hd => ?_, (addresses_update hf).trans (addresses_retainAll v.handles)⟩
  · obtain ⟨smaller, larger, hl, hnow⟩ := Member.exists_append_of_insert hi
    obtain ⟨c, hc, hobject⟩ : ∃ c, (h.retainAll v.handles).cell? a = some c ∧
        c.object = .set a (smaller ++ larger) := by
      rw [← object?_retainAll v.handles, hl] at ho
      exact Option.map_eq_some_iff.1 ho
    have hknown : ∀ o ∈ (v.mapObjects Object.bare).objects, (h.retainAll v.handles).Refers o :=
      fun o ho => hremains.refers (hv o ho)
        ((addresses_retainAll v.handles).symm ▸ (hv o ho).alive)
    rw [hnow]
    refine Heap.Kept.refill ?_ hc hobject hknown ?_
    · rw [handles_bare]
      exact hk.retainAll (alive_of_knows hv)
    · rw [← hnow, List.length_map, List.length_map]
  · obtain ⟨e, he, rfl⟩ := List.mem_map.1 hd
    by_cases hea : e.object.address = a
    · exact .inr (by rw [if_pos hea]; rfl)
    · refine .inl ?_
      rw [if_neg hea]
      exact ⟨hea, hremains e he⟩

lemma Kept.insertSet (hk : s.Kept []) {label : String} {v : Value} {a n : Nat}
    {members : List Value} {levels hidden : List Nat} (ha : s.labels.lookup label = some a)
    (hc : s.heap.cell? a = some ⟨.set a members, levels, n, hidden⟩)
    (hv : s.heap.Knows (v.mapObjects Object.bare)) :
    (s.perform close (.insert label v)).Kept [] ∧
      Changes s.heap (.insert label v) (s.perform close (.insert label v)).heap := by
  have hlength : members.length = levels.length := (hk.heap.levels _ (cell?_mem hc).1).symm
  have hvalues : (List.zipWith Member.mk members levels).map Member.value = members :=
    List.ext_getElem (by simp [hlength]) fun i hi hi' => by simp
  have halive := alive_of_knows hv
  have hp := perform_insert close ha v
  rw [insert_of_cell? close hc] at hp
  cases hi : Member.insert s.heap.compare (v.mapObjects Object.bare)
    (List.zipWith Member.mk members levels) with
  | none =>
    have hsame : s.perform close (.insert label v) = s := by
      rw [hp, hi]
      dsimp only [Option.map_some, Option.getD_some]
      rw [retainAll_release hk.heap.positive halive]
    rw [hsame]
    exact ⟨hk, .refused (fun c hc => object?_of_mem hk.heap.nodup hc) rfl⟩
  | some now =>
    rw [hi] at hp
    rw [hp]
    have ho : s.heap.object? a =
        some (.set a ((List.zipWith Member.mk members levels).map Member.value)) := by
      rw [hvalues, Heap.object?, hc]
      rfl
    obtain ⟨hkept, hputs⟩ := puts_of_insert hk.heap ho hv hi
    exact ⟨⟨hkept, hk.labels⟩, .put hputs⟩

/-- A value is put in, or is dropped again. -/
lemma Kept.insert (hk : s.Kept []) (label : String) {v : Value}
    (hv : s.heap.Knows (v.mapObjects Object.bare)) :
    (s.perform close (.insert label v)).Kept [] ∧
      Changes s.heap (.insert label v) (s.perform close (.insert label v)).heap := by
  have hsame : s.Kept [] ∧ Changes s.heap (.insert label v) s.heap :=
    ⟨hk, .refused (fun c hc => object?_of_mem hk.heap.nodup hc) rfl⟩
  cases ha : s.labels.lookup label with
  | none =>
    have hn : s.perform close (.insert label v) = s := by
      rw [Handles.perform, Handles.insert, ha]
      rfl
    rw [hn]
    exact hsame
  | some a =>
    have hnone (hi : s.heap.insert close a v = none) : s.perform close (.insert label v) = s := by
      rw [perform_insert close ha, hi]
      rfl
    cases hc : s.heap.cell? a with
    | none =>
      rw [hnone (by rw [Heap.insert, hc])]
      exact hsame
    | some c =>
      obtain ⟨object, levels, n, hidden⟩ := c
      cases object with
      | connection b number =>
        rw [hnone (by rw [Heap.insert, hc])]
        exact hsame
      | plugin b type =>
        rw [hnone (by rw [Heap.insert, hc])]
        exact hsame
      | set b members =>
        obtain rfl : b = a := (cell?_mem hc).2
        exact hk.insertSet close ha hc hv

/-- After a call that names live objects all handles are counted, and no more has changed than the
call can do. -/
theorem Kept.perform (hk : s.Kept []) (call : Call) (hn : call.Names s.heap) :
    (s.perform close call).Kept [] ∧ Changes s.heap call (s.perform close call).heap := by
  cases call with
  | connection label number =>
    obtain ⟨h, hcells⟩ := hk.create close label (.connection · number) [] nofun (fun _ => rfl)
      fun _ => rfl
    exact ⟨h, .other nofun hcells⟩
  | plugin label type hidden =>
    obtain ⟨h, hcells⟩ := hk.create close label (.plugin · type) hidden hn (fun _ => rfl)
      fun _ => rfl
    exact ⟨h, .other nofun hcells⟩
  | set label items =>
    obtain ⟨h, hcells⟩ := hk.createSet close label hn
    exact ⟨h, .other nofun hcells⟩
  | clone source target =>
    obtain ⟨h, hr⟩ := hk.clone close source target
    exact ⟨h, .other nofun fun c hc => .inl (hr c hc)⟩
  | drop label =>
    obtain ⟨h, -, hr⟩ := hk.drop close label
    exact ⟨h, .other nofun fun c hc => .inl (hr c hc)⟩
  | insert label v => exact hk.insert close label hn

lemma kept_empty : empty.Kept [] :=
  ⟨⟨.empty, nofun, nofun⟩, .nil⟩

lemma after_concat (calls : List Call) (call : Call) :
    after close (calls ++ [call]) = (after close calls).perform close call := by
  rw [after, List.foldl_append]
  rfl

/-- All handles are counted after every call of a history in which calls name live objects. -/
theorem kept_after {calls : List Call}
    (hn : ∀ before call, before ++ [call] <+: calls → call.Names (after close before).heap)
    {before : List Call} (hb : before <+: calls) : (after close before).Kept [] := by
  induction before using List.reverseRecOn with
  | nil => exact kept_empty
  | append_singleton before call ih =>
    have hk := ih ((List.prefix_append before [call]).trans hb)
    rw [after_concat close]
    exact (hk.perform close call (hn before call hb)).1

end Handles

end TransactionEngine
