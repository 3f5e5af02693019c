import Mathlib.Data.Finmap
import Mathlib.Data.List.Infix

/-!
# Replays

A structure with state is compared with a finite map by making the same calls to both. What holds of
one call, from states that are tied to each other, holds of all calls. What holds of each call of a
history, with the calls before it, is told by the last one and those before.
-/

namespace TransactionEngine

section Replay

variable {σ τ ι ω : Type}

/-- Makes calls one after the other; gives all answers and the last state. -/
def replay (step : σ → ι → ω × σ) : σ → List ι → List ω × σ
  | s, [] => ([], s)
  | s, call :: calls =>
    let (answer, s) := step s call
    let (answers, s) := replay step s calls
    (answer :: answers, s)

lemma replay_cons (step : σ → ι → ω × σ) (s : σ) (call : ι) (calls : List ι) :
    replay step s (call :: calls) =
      ((step s call).1 :: (replay step (step s call).2 calls).1,
        (replay step (step s call).2 calls).2) := rfl

lemma replay_concat (step : σ → ι → ω × σ) (s : σ) (calls : List ι) (call : ι) :
    replay step s (calls ++ [call]) =
      ((replay step s calls).1 ++ [(step (replay step s calls).2 call).1],
        (step (replay step s calls).2 call).2) := by
  induction calls generalizing s with
  | nil => rfl
  | cons c calls ih => rw [List.cons_append, replay_cons, replay_cons, ih, List.cons_append]

/-- Two states that are tied to each other give the same answers, and tied states again. -/
lemma replay_simulates {f : σ → ι → ω × σ} {g : τ → ι → ω × τ} {R : σ → τ → Prop}
    (hstep : ∀ s t call, R s t → (f s call).1 = (g t call).1 ∧ R (f s call).2 (g t call).2)
    {s : σ} {t : τ} (h : R s t) (calls : List ι) :
    (replay f s calls).1 = (replay g t calls).1 ∧
      R (replay f s calls).2 (replay g t calls).2 := by
  induction calls generalizing s t with
  | nil => exact ⟨rfl, h⟩
  | cons call calls ih =>
    obtain ⟨hanswer, hnext⟩ := hstep s t call h
    obtain ⟨hanswers, hlast⟩ := ih hnext
    rw [replay_cons, replay_cons, hanswer, hanswers]
    exact ⟨rfl, hlast⟩

end Replay

section Histories

variable {ι : Type} {before calls : List ι} {call last : ι}

lemma concat_prefix_concat_iff :
    before ++ [call] <+: calls ++ [last] ↔
      (before = calls ∧ call = last) ∨ before ++ [call] <+: calls := by
  rw [List.prefix_concat_iff, List.append_singleton_inj]

lemma forall_concat_prefix_iff {p : List ι → ι → Prop} :
    (∀ before call, before ++ [call] <+: calls ++ [last] → p before call) ↔
      (∀ before call, before ++ [call] <+: calls → p before call) ∧ p calls last := by
  constructor
  · intro h
    exact ⟨fun before call hb => h before call (concat_prefix_concat_iff.2 (.inr hb)),
      h calls last (concat_prefix_concat_iff.2 (.inl ⟨rfl, rfl⟩))⟩
  · rintro ⟨h, hlast⟩ before call hb
    obtain ⟨rfl, rfl⟩ | hb := concat_prefix_concat_iff.1 hb
    · exact hlast
    · exact h before call hb

end Histories

section FiniteMaps

variable {κ α : Type} [DecidableEq κ] (entries : Finmap fun _ : κ => α)

lemma lookup_insert_eq (key k : κ) (a : α) :
    (entries.insert key a).lookup k = if k = key then some a else entries.lookup k := by
  by_cases hk : k = key
  · rw [if_pos hk, hk, Finmap.lookup_insert]
  · rw [if_neg hk, Finmap.lookup_insert_of_ne _ hk]

lemma lookup_erase_eq (key k : κ) :
    (entries.erase key).lookup k = if k = key then none else entries.lookup k := by
  by_cases hk : k = key
  · rw [if_pos hk, hk, Finmap.lookup_erase]
  · rw [if_neg hk, Finmap.lookup_erase_ne hk]

end FiniteMaps

end TransactionEngine
