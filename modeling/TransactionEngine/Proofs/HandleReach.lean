import Mathlib.Order.WellFoundedSet
import TransactionEngine.Proofs.SharedSets

/-!
# What handles reach

A handle to an object is held outside of all sets, or is in a member of one. What is reached from
outside, through members and their members, is alive; what is not reached any more was closed once.
That holds after any calls, whatever closing came to, as long as no set holds itself.
-/

namespace TransactionEngine

namespace Heap

/-- The addresses that members of live sets hold handles to, once for every handle. -/
def inMembers (h : Heap) : List Nat :=
  h.cells.flatMap fun c => c.object.handles

/-- The addresses that live objects of other types hold handles to, once for every handle. -/
def inObjects (h : Heap) : List Nat :=
  h.cells.flatMap Cell.hidden

/-- How often the object at an address was closed. -/
def closings (h : Heap) (a : Nat) : Nat :=
  (h.closed.map Prod.fst).count a

/-- The object at an address holds a handle to the one at another address, in a member or by
itself. -/
def Leads (h : Heap) (a b : Nat) : Prop :=
  ∃ c, h.cell? a = some c ∧ b ∈ c.handles

variable {h : Heap} {outside roots : List Nat} {a b : Nat}

lemma count_held (h : Heap) (a : Nat) :
    h.held.count a = h.inMembers.count a + h.inObjects.count a := by
  unfold held inMembers inObjects
  induction h.cells with
  | nil => rfl
  | cons c cells ih =>
    simp only [List.flatMap_cons, List.count_append, Cell.handles] at ih ⊢
    omega

lemma members_of_mem (hn : h.addresses.Nodup) {c : Cell} (hc : c ∈ h.cells) :
    h.members c.object.address = c.object.members := by
  rw [members_eq, object?_of_mem hn hc]
  rfl

lemma mem_inMembers_iff (hn : h.addresses.Nodup) :
    a ∈ h.inMembers ↔ ∃ b ∈ h.addresses, h.Holds b a := by
  constructor
  · intro ha
    obtain ⟨c, hc, ha⟩ := List.mem_flatMap.1 ha
    refine ⟨c.object.address, List.mem_map_of_mem hc, ?_⟩
    rw [Holds, members_of_mem hn hc, ← handles_object]
    exact ha
  · rintro ⟨b, hb, ha⟩
    obtain ⟨c, hc, rfl⟩ := List.mem_map.1 hb
    rw [Holds, members_of_mem hn hc, ← handles_object] at ha
    exact List.mem_flatMap.2 ⟨c, hc, ha⟩

lemma alive_of_holds (hba : h.Holds b a) : b ∈ h.addresses := by
  by_contra hn
  rw [Holds, members, cell?_eq_none_iff.2 hn] at hba
  cases hba

/-- All handles are at the roots or lead from live objects to live objects. -/
structure Spread (h : Heap) (roots : List Nat) (leads : Nat → Nat → Prop) : Prop where
  root : ∀ a ∈ roots, a ∈ h.addresses
  next : ∀ b a, leads b a → a ∈ h.addresses
  back : ∀ a ∈ h.addresses, a ∈ roots ∨ ∃ b ∈ h.addresses, leads b a

variable {leads : Nat → Nat → Prop}

lemma Spread.alive (hs : h.Spread roots leads)
    (ha : ∃ b ∈ roots, Relation.ReflTransGen leads b a) : a ∈ h.addresses := by
  obtain ⟨b, hb, hba⟩ := ha
  cases hba with
  | refl => exact hs.root a hb
  | tail _ hca => exact hs.next _ _ hca

/-- There are finitely many live objects, so the way back from handle to handle comes to an end where
it never comes by the same object again. -/
lemma wellFoundedOn_addresses (hacyclic : ∀ a, ¬Relation.TransGen leads a a) :
    Set.WellFoundedOn {a | a ∈ h.addresses} (Relation.TransGen leads) :=
  have : IsStrictOrder Nat (Relation.TransGen leads) :=
    { irrefl := hacyclic, trans := fun _ _ _ => .trans }
  h.addresses.finite_toSet.wellFoundedOn

lemma Spread.reached (hs : h.Spread roots leads) (hacyclic : ∀ a, ¬Relation.TransGen leads a a)
    (ha : a ∈ h.addresses) : ∃ b ∈ roots, Relation.ReflTransGen leads b a := by
  refine (wellFoundedOn_addresses hacyclic).induction
    (P := fun a => ∃ b ∈ roots, Relation.ReflTransGen leads b a) ha fun a ha ih => ?_
  rcases hs.back a ha with hroot | ⟨b, hb, hba⟩
  · exact ⟨a, hroot, .refl⟩
  · obtain ⟨root, hroot, hreach⟩ := ih b hb (.single hba)
    exact ⟨root, hroot, hreach.tail hba⟩

lemma mem_held_iff : a ∈ h.held ↔ a ∈ h.inMembers ∨ a ∈ h.inObjects := by
  rw [← List.count_pos_iff, ← List.count_pos_iff, ← List.count_pos_iff, count_held]
  omega

lemma mem_held_iff_leads (hn : h.addresses.Nodup) :
    a ∈ h.held ↔ ∃ b ∈ h.addresses, h.Leads b a := by
  constructor
  · intro ha
    obtain ⟨c, hc, ha⟩ := List.mem_flatMap.1 ha
    exact ⟨c.object.address, List.mem_map_of_mem hc, c, cell?_of_mem hn hc, ha⟩
  · rintro ⟨b, -, c, hc, ha⟩
    exact List.mem_flatMap.2 ⟨c, (cell?_mem hc).1, ha⟩

lemma alive_of_leads (hba : h.Leads b a) : b ∈ h.addresses := by
  obtain ⟨c, hc, -⟩ := hba
  obtain ⟨hmem, rfl⟩ := cell?_mem hc
  exact List.mem_map_of_mem hmem

namespace Balanced

lemma held_of_alive (hb : h.Balanced outside) (ha : a ∈ h.addresses) : a ∈ outside ++ h.held := by
  obtain ⟨c, hc⟩ := exists_cell ha
  rw [← List.count_pos_iff, List.count_append, ← hb.counted, count, hc]
  exact hb.positive c (cell?_mem hc).1

/-- Handles in members lead on from those that are held outside of sets. -/
lemma spread_members (hb : h.Balanced outside) :
    h.Spread (outside ++ h.inObjects) h.Holds where
  root a hroot := by
    refine hb.alive ?_
    rw [List.mem_append, mem_held_iff]
    exact (List.mem_append.1 hroot).imp_right .inr
  next b a hba := by
    refine hb.alive (List.mem_append_right _ (mem_held_iff.2 (.inl ?_)))
    exact (mem_inMembers_iff hb.nodup).2 ⟨b, alive_of_holds hba, hba⟩
  back a halive := by
    have hheld := hb.held_of_alive halive
    rw [List.mem_append, mem_held_iff, mem_inMembers_iff hb.nodup] at hheld
    rw [List.mem_append]
    tauto

/-- Handles of both kinds lead on from those under labels. -/
lemma spread_handles (hb : h.Balanced outside) : h.Spread outside h.Leads where
  root a hroot := hb.alive (List.mem_append_left _ hroot)
  next b a hba := by
    refine hb.alive (List.mem_append_right _ ?_)
    exact (mem_held_iff_leads hb.nodup).2 ⟨b, alive_of_leads hba, hba⟩
  back a halive := by
    rw [← mem_held_iff_leads hb.nodup, ← List.mem_append]
    exact hb.held_of_alive halive

lemma closings_of_alive (hb : h.Balanced outside) (ha : a ∈ h.addresses) : h.closings a = 0 := by
  have honce := hb.once a
  rw [if_pos (hb.lt_next ha)] at honce
  have hpos := List.count_pos_iff.2 ha
  rw [closings]
  omega

lemma closings_of_not_alive (hb : h.Balanced outside) (ha : a ∉ h.addresses) :
    h.closings a = if a < h.next then 1 else 0 := by
  rw [← hb.once a, List.count_eq_zero_of_not_mem ha, Nat.zero_add, closings]

end Balanced

/-- Every object was closed by this, and what it came to is kept. -/
def ClosedBy (close : Nat → Except Error Unit) (h : Heap) : Prop :=
  ∀ r ∈ h.closed, r.2 = close r.1

variable {close : Nat → Except Error Unit} {added : List Nat}

lemma closed_retainAll (added : List Nat) : (h.retainAll added).closed = h.closed := by
  induction added generalizing h with
  | nil => rfl
  | cons a added ih => exact ih

lemma ClosedBy.retainAll (hc : h.ClosedBy close) (added : List Nat) :
    (h.retainAll added).ClosedBy close := by
  unfold ClosedBy
  rwa [closed_retainAll]

lemma ClosedBy.release (hc : h.ClosedBy close) : (h.release close added).ClosedBy close := by
  fun_induction Heap.release close h added with
  | case1 h => exact hc
  | case2 h a rest hnone ih => exact ih hc
  | case3 h a rest c hcell hlast ih =>
    refine ih (List.forall_mem_append.2 ⟨hc, ?_⟩)
    exact List.forall_mem_singleton.2 rfl
  | case4 h a rest c hcell hlast ih => exact ih hc

end Heap

namespace Handles

open Heap

variable {s : Handles} {close : Nat → Except Error Unit}

/-- The handles that are in no set: those under labels, and those of live objects of other types. -/
def outside (s : Handles) : List Nat :=
  s.labels.map Prod.snd ++ s.heap.inObjects

/-- A handle that is in no set leads to the object, through members and their members. -/
def Reached (s : Handles) (a : Nat) : Prop :=
  ∃ b ∈ s.outside, Relation.ReflTransGen s.heap.Holds b a

/-- A handle under a label leads to the object, through all that objects hold. -/
def Labelled (s : Handles) (a : Nat) : Prop :=
  ∃ b ∈ s.labels.map Prod.snd, Relation.ReflTransGen s.heap.Leads b a

/-- Handles are counted, what is reached is alive and was never closed, and all else that was made
was closed once. Where objects of other types hold no handle to what holds them, handles under labels
are all that keeps an object alive. -/
structure Settled (s : Handles) (close : Nat → Except Error Unit) : Prop where
  counted (a : Nat) : s.heap.count a = s.outside.count a + s.heap.inMembers.count a
  reached (a : Nat) : s.Reached a → a ∈ s.heap.addresses ∧ s.heap.closings a = 0
  unreached (a : Nat) : s.heap.Acyclic → ¬s.Reached a →
    a ∉ s.heap.addresses ∧ s.heap.closings a = if a < s.heap.next then 1 else 0
  labelled (a : Nat) : (∀ b, ¬Relation.TransGen s.heap.Leads b b) →
    (s.Labelled a ↔ a ∈ s.heap.addresses)
  closedBy : s.heap.ClosedBy close

lemma Kept.settled (hk : s.Kept []) (hc : s.heap.ClosedBy close) : s.Settled close where
  counted a := by
    have hcount := hk.heap.counted a
    rw [List.nil_append, count_held] at hcount
    rw [hcount, outside, List.count_append]
    omega
  reached a ha := by
    have halive : a ∈ s.heap.addresses := hk.heap.spread_members.alive ha
    exact ⟨halive, hk.heap.closings_of_alive halive⟩
  unreached a hacyclic ha := by
    have hn : a ∉ s.heap.addresses :=
      fun halive => ha (hk.heap.spread_members.reached hacyclic halive)
    exact ⟨hn, hk.heap.closings_of_not_alive hn⟩
  labelled a hacyclic :=
    ⟨hk.heap.spread_handles.alive, hk.heap.spread_handles.reached hacyclic⟩
  closedBy := hc

/-- Every call of a history names live objects. -/
def NamesLive (close : Nat → Except Error Unit) (calls : List Call) : Prop :=
  ∀ before call, before ++ [call] <+: calls → call.Names (after close before).heap

lemma NamesLive.concat {calls : List Call} {call : Call} (hn : NamesLive close calls)
    (hc : call.Names (after close calls).heap) : NamesLive close (calls ++ [call]) :=
  forall_concat_prefix_iff.2 ⟨hn, hc⟩

end Handles

end TransactionEngine
