import TransactionEngine.Proofs.StackFrames

/-!
# Slots below the frame

`veiled` puts nil into every slot below the frame. Within the frame each operation of the stack
gives the same on the veiled stack as on the stack itself, veiled afterwards.
-/

namespace TransactionEngine.Stack

/-- The stack with nil in every slot below the frame. -/
def veiled (s : Stack) : Stack :=
  { s with slots := List.replicate s.frame .nil ++ s.frameSlots }

lemma Framed.split {s : Stack} (hs : s.Framed) :
    ∃ below own capacity least, s = ⟨below ++ own, below.length, capacity, least⟩ := by
  refine ⟨s.slots.take s.frame, s.slots.drop s.frame, s.capacity, s.minCapacity, ?_⟩
  rw [List.take_append_drop, List.length_take_of_le hs]

lemma veiled_mk (below own : List Value) (capacity least : Nat) :
    veiled ⟨below ++ own, below.length, capacity, least⟩ =
      ⟨List.replicate below.length .nil ++ own, below.length, capacity, least⟩ := by
  unfold veiled frameSlots
  rw [List.drop_left]

variable {s : Stack} (hs : s.Framed)

@[simp] lemma veiled_frame (s : Stack) : s.veiled.frame = s.frame := rfl

@[simp] lemma frameSlots_veiled (s : Stack) : s.veiled.frameSlots = s.frameSlots := by
  unfold frameSlots veiled
  exact List.drop_left' (List.length_replicate ..)

lemma drop_veiled {start : Nat} (hi : s.frame ≤ start) :
    s.veiled.slots.drop start = s.slots.drop start := by
  have hd (slots : List Value) : slots.drop start = (slots.drop s.frame).drop (start - s.frame) := by
    rw [List.drop_drop, Nat.add_sub_cancel' hi]
  rw [hd, hd s.slots]
  exact congrArg (List.drop (start - s.frame)) (frameSlots_veiled s)

lemma get?_veiled {index : Nat} (hi : s.frame ≤ index) : s.veiled.get? index = s.get? index := by
  unfold get?
  rw [← List.head?_drop, ← List.head?_drop, drop_veiled hi]

include hs

lemma top_veiled : s.veiled.top = s.top := by
  obtain ⟨below, own, capacity, least, rfl⟩ := hs.split
  rw [veiled_mk]
  simp [top]

lemma frameLength_veiled : s.veiled.frameLength = s.frameLength := by
  unfold frameLength
  rw [top_veiled hs, veiled_frame]

lemma indexOf_veiled (position : Int64) : s.veiled.indexOf position = s.indexOf position := by
  unfold indexOf
  rw [top_veiled hs]

lemma slotsFrom_veiled {start : Nat} (hi : s.frame ≤ start) :
    s.veiled.slotsFrom start = s.slotsFrom start := by
  unfold slotsFrom
  rw [top_veiled hs, drop_veiled hi]

lemma pushValues_veiled (values : List Value) :
    s.veiled.pushValues values = (s.pushValues values).map veiled := by
  unfold pushValues reserve
  rw [top_veiled hs]
  obtain ⟨below, own, capacity, least, rfl⟩ := hs.split
  rw [veiled_mk]
  dsimp only
  generalize (top ⟨below ++ own, below.length, capacity, least⟩) + values.length = needed
  have he (room : Nat) :
      (⟨List.replicate below.length .nil ++ own ++ values, below.length, room, least⟩ : Stack) =
        veiled ⟨below ++ own ++ values, below.length, room, least⟩ := by
    rw [List.append_assoc, List.append_assoc, veiled_mk]
  by_cases hn : needed ≤ capacity
  · rw [if_pos hn, if_pos hn]
    exact congrArg Except.ok (he capacity)
  · rw [if_neg hn, if_neg hn]
    by_cases hg : doubled needed capacity ≤ greatestCapacity
    · rw [if_pos hg, if_pos hg]
      exact congrArg Except.ok (he _)
    · rw [if_neg hg, if_neg hg]
      rfl

lemma push_veiled (n : Nat) : s.veiled.push n = (s.push n).map veiled := by
  rw [push_eq_pushValues, push_eq_pushValues, pushValues_veiled hs]

lemma pop_veiled (n : Nat) : s.veiled.pop n = (s.pop n).map veiled := by
  unfold pop shrink
  rw [frameLength_veiled hs, top_veiled hs]
  by_cases hn : s.frameLength < n
  · rw [if_pos hn, if_pos hn]
    rfl
  · rw [if_neg hn, if_neg hn]
    obtain ⟨below, own, capacity, least, rfl⟩ := hs.split
    rw [veiled_mk]
    have hl : top ⟨below ++ own, below.length, capacity, least⟩ - n =
        below.length + (own.length - n) := by
      simp only [frameLength, top, List.length_append] at hn ⊢
      omega
    have hv : (List.replicate below.length Value.nil ++ own).take
        (below.length + (own.length - n)) =
        List.replicate below.length .nil ++ own.take (own.length - n) := by
      rw [List.take_append, List.length_replicate, Nat.add_sub_cancel_left,
        List.take_of_length_le (by simp)]
    rw [hl, List.take_length_add_append, hv]
    change _ = Except.ok (veiled _)
    rw [veiled_mk]
    simp [top]

lemma set_veiled {index : Nat} (hi : s.frame ≤ index) (v : Value) :
    s.veiled.set index v = (s.set index v).veiled := by
  obtain ⟨below, own, capacity, least, rfl⟩ := hs.split
  change below.length ≤ index at hi
  unfold set
  rw [veiled_mk]
  dsimp only
  rw [List.set_append_right _ _ hi, List.set_append_right _ _ (by simpa using hi), veiled_mk,
    List.length_replicate]

lemma overwriteFrom_veiled {start : Nat} (hi : s.frame ≤ start) (values : List Value) :
    s.veiled.overwriteFrom start values = (s.overwriteFrom start values).veiled := by
  obtain ⟨below, own, capacity, least, rfl⟩ := hs.split
  obtain ⟨k, rfl⟩ := Nat.exists_eq_add_of_le hi
  have ht (front : List Value) (hl : front.length = below.length) :
      (front ++ own).take (below.length + k) ++ values ++
          (front ++ own).drop (below.length + k + values.length) =
        front ++ (own.take k ++ values ++ own.drop (k + values.length)) := by
    rw [← hl, List.take_length_add_append, Nat.add_assoc, List.drop_length_add_append]
    simp only [List.append_assoc]
  rw [veiled_mk]
  unfold overwriteFrom
  dsimp only
  rw [ht _ (List.length_replicate ..), ht _ rfl, veiled_mk]

lemma result_veiled : s.veiled.result = s.result := by
  unfold result peek
  rw [frameLength_veiled hs]
  by_cases hn : 0 < s.frameLength
  · rw [if_pos hn, if_pos hn]
    obtain ⟨below, own, capacity, least, rfl⟩ := hs.split
    have ho : own ≠ [] := by
      rintro rfl
      simp [frameLength, top] at hn
    rw [veiled_mk]
    dsimp only
    rw [List.getLast?_append, List.getLast?_append, List.getLast?_eq_some_getLast ho]
    rfl
  · rw [if_neg hn, if_neg hn]

end TransactionEngine.Stack
