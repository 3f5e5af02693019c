import Mathlib.Data.List.Basic
import Mathlib.Tactic.SplitIfs
import TransactionEngine.Json.Document

/-!
# Documents that were read

Whatever text a document is read from, its object holds each key once: a field is put in its place
in the order of keys, and takes the place of an earlier one with its key.
-/

namespace TransactionEngine.Json

/-- An object that holds each key once, or no object. -/
def KeysOnce : Json → Prop
  | .object fields => (fields.map Prod.fst).Nodup
  | _ => True

/-- Keys in increasing order. -/
def Ordered (fields : List (String × Json)) : Prop :=
  (fields.map Prod.fst).Pairwise fun a b => compare a b = .lt

lemma Ordered.nodup {fields : List (String × Json)} (h : Ordered fields) :
    (fields.map Prod.fst).Nodup :=
  h.imp fun hlt he => by
    rw [he, Std.ReflOrd.compare_self] at hlt
    cases hlt

lemma key_of_mem_setField {key k : String} {value : Json} {fields : List (String × Json)}
    (h : k ∈ (setField key value fields).map Prod.fst) : k = key ∨ k ∈ fields.map Prod.fst := by
  induction fields with
  | nil => exact .inl (List.mem_singleton.1 h)
  | cons field fields ih =>
    obtain ⟨first, v⟩ := field
    rw [setField] at h
    split at h
    · exact List.mem_cons.1 h
    · exact (List.mem_cons.1 h).imp_right (List.mem_cons_of_mem _)
    · rcases List.mem_cons.1 h with rfl | h
      · exact .inr List.mem_cons_self
      · exact (ih h).imp_right (List.mem_cons_of_mem _)

lemma Ordered.setField {fields : List (String × Json)} (h : Ordered fields) (key : String)
    (value : Json) : Ordered (setField key value fields) := by
  induction fields with
  | nil => exact List.pairwise_singleton _ _
  | cons field fields ih =>
    obtain ⟨first, v⟩ := field
    obtain ⟨hfirst, hfields⟩ := List.pairwise_cons.1 h
    rw [Json.setField]
    split
    · next hlt =>
      refine List.pairwise_cons.2 ⟨fun k hk => ?_, h⟩
      rcases List.mem_cons.1 hk with rfl | hk
      · exact hlt
      · exact Std.TransCmp.lt_trans hlt (hfirst k hk)
    · next heq =>
      obtain rfl := Std.LawfulEqOrd.compare_eq_iff_eq.1 heq
      exact h
    · next hgt =>
      refine List.pairwise_cons.2 ⟨fun k hk => ?_, ih hfields⟩
      rcases key_of_mem_setField hk with rfl | hk
      · rwa [Std.OrientedOrd.eq_swap, Ordering.swap_eq_lt]
      · exact hfirst k hk

/-! ### What readers give -/

section Outcomes

variable {ε α β : Type} {p : α → Prop} {q : β → Prop}

/-- What an outcome gives has a property. -/
def Gives (p : α → Prop) (x : Except ε α) : Prop :=
  ∀ a, x = .ok a → p a

lemma gives_error (e : ε) : Gives p (.error e) := nofun

lemma gives_ok {a : α} (h : p a) : Gives p (.ok a : Except ε α) := by
  rintro _ ⟨⟩
  exact h

lemma gives_true (x : Except ε α) : Gives (fun _ => True) x := fun _ _ => trivial

lemma gives_bind {x : Except ε β} {f : β → Except ε α} (hx : Gives q x)
    (hf : ∀ b, q b → Gives p (f b)) : Gives p (x >>= f) := by
  cases x with
  | error e => exact gives_error e
  | ok b => exact hf b (hx b rfl)

lemma gives_map {x : Except ε β} {f : β → α} (hx : Gives q x) (hf : ∀ b, q b → p (f b)) :
    Gives p (x.map f) := by
  cases x with
  | error e => exact gives_error e
  | ok b => exact gives_ok (hf b (hx b rfl))

lemma gives_ite {c : Prop} [Decidable c] {x y : Except ε α} (hx : Gives p x) (hy : Gives p y) :
    Gives p (if c then x else y) := by
  split
  · exact hx
  · exact hy

end Outcomes

namespace Reader

variable {bs : Bytes}

lemma gives_finishDouble {positive : Bool} {significand : Nat} {exponent : Int} {left : Bytes} :
    Gives KeysOnce (finishDouble positive significand exponent left) := by
  unfold finishDouble
  split
  · exact gives_ok trivial
  · exact gives_error _

lemma gives_exponentPart {positive : Bool} {significand : Nat} {exponent : Int} :
    Gives (fun r => r.1.KeysOnce) (exponentPart positive significand exponent bs) := by
  unfold exponentPart
  dsimp only
  split
  · exact gives_error _
  · split
    · split
      · exact gives_ite (gives_error _) (gives_ok trivial)
      · exact gives_bind gives_finishDouble fun j hj => gives_ok hj
    · exact gives_error _

lemma gives_fractionPart {positive : Bool} {significand : Nat} {exponent : Int} :
    Gives (fun r => r.1.KeysOnce) (fractionPart positive significand exponent bs) := by
  unfold fractionPart
  dsimp only
  split <;> split_ifs
  · exact gives_error _
  · exact gives_bind gives_finishDouble fun j hj => gives_ok hj
  · exact gives_error _
  · exact gives_bind gives_exponentPart fun r hr => gives_ok hr
  · exact gives_bind gives_finishDouble fun j hj => gives_ok hj

lemma gives_afterDigits {positive : Bool} {significand : Nat} {exponent : Int}
    {plain : Bytes → Except Fault Json} (hplain : ∀ {bs}, Gives KeysOnce (plain bs)) :
    Gives (fun r => r.1.KeysOnce) (afterDigits positive significand exponent plain bs) := by
  unfold afterDigits
  split
  · exact gives_map hplain fun j hj => hj
  · split_ifs
    · exact gives_bind gives_fractionPart fun r hr => gives_ok hr
    · exact gives_bind gives_exponentPart fun r hr => gives_ok hr
    · exact gives_map hplain fun j hj => hj

lemma keysOnce_plainInteger (positive : Bool) (n : Nat) : (plainInteger positive n).KeysOnce := by
  unfold plainInteger
  split_ifs <;> trivial

lemma gives_number {positive : Bool} :
    Gives (fun r => r.1.KeysOnce) (number positive bs) := by
  have hplain (n : Nat) : Gives KeysOnce (.ok (plainInteger positive n) : Except Fault Json) :=
    gives_ok (keysOnce_plainInteger positive n)
  unfold number
  dsimp only
  split
  · exact gives_error _
  · split_ifs
    · exact gives_error _
    · exact gives_bind (gives_afterDigits (hplain _)) fun r hr => gives_ok hr
    · exact gives_bind (gives_afterDigits (hplain _)) fun r hr => gives_ok hr
    · exact gives_bind (gives_afterDigits gives_finishDouble) fun r hr => gives_ok hr
    · exact gives_error _

lemma gives_scalarFrom {b : UInt8} :
    Gives (fun r => r.1.KeysOnce) (scalarFrom b bs) := by
  unfold scalarFrom
  split_ifs
  · exact gives_map (gives_true _) fun _ _ => trivial
  · exact gives_map (gives_true _) fun _ _ => trivial
  · exact gives_map (gives_true _) fun _ _ => trivial
  · exact gives_number
  · exact gives_map gives_number fun r hr => hr
  · exact gives_map (gives_true _) fun _ _ => trivial
  · exact gives_error _

/-- What every field keeps is kept by all fields of an object. -/
lemma gives_fields {σ : Type} {p : σ → Prop} {field : σ → String → Reader σ}
    (hfield : ∀ s key bs, p s → Gives (fun r => p r.1) (field s key bs)) {s : σ} (hs : p s)
    (bs : Bytes) : Gives (fun r => p r.1) (fields field s bs) := by
  induction h : bs.length using Nat.strongRecOn generalizing s bs with
  | _ length ih =>
    rw [fields]
    refine gives_bind (gives_true _) fun (key, k) _ => ?_
    refine gives_bind (hfield s key _ hs) fun (s, m) hs => ?_
    dsimp only
    split
    · exact gives_error _
    · next b rest hdrop =>
      split_ifs
      · exact gives_ok hs
      · split
        · exact gives_error _
        · have hlength := congrArg List.length hdrop
          split_ifs
          · refine gives_bind (ih _ ?_ hs _ rfl) fun r hr => gives_ok hr
            simp only [List.length_drop, List.length_cons] at hlength ⊢
            omega
          · exact gives_error _
          · exact gives_error _
      · exact gives_error _

lemma gives_object {σ : Type} {p : σ → Prop} {field : σ → String → Reader σ}
    (hfield : ∀ s key bs, p s → Gives (fun r => p r.1) (field s key bs)) {s : σ} (hs : p s)
    (bs : Bytes) : Gives (fun r => p r.1) (object field s bs) := by
  unfold object
  dsimp only
  split
  · exact gives_error _
  · split_ifs
    · exact gives_ok hs
    · exact gives_bind (gives_fields hfield hs _) fun r hr => gives_ok hr
    · exact gives_error _

lemma gives_treeField {value : Reader Json} (sorted : List (String × Json)) (key : String)
    (bs : Bytes) (h : Ordered sorted) :
    Gives (fun r => Ordered r.1) (treeField value sorted key bs) := by
  unfold treeField
  refine gives_bind (gives_true _) fun _ _ => ?_
  exact gives_bind (gives_true _) fun _ _ => gives_ok (h.setField key _)

lemma gives_documentFrom {inner : Option (Reader Json)} {b : UInt8} :
    Gives (fun r => r.1.KeysOnce) (documentFrom inner b bs) := by
  unfold documentFrom
  split_ifs
  · split
    · exact gives_error _
    · exact gives_map (gives_true _) fun _ _ => trivial
  · split
    · exact gives_error _
    · have hnil : Ordered [] := List.Pairwise.nil
      exact gives_map (gives_object gives_treeField hnil bs) fun r hr => hr.nodup
  · exact gives_scalarFrom

lemma gives_document {inner : Option (Reader Json)} :
    Gives (fun r => r.1.KeysOnce) (document inner bs) := by
  unfold document
  dsimp only
  split
  · exact gives_error _
  · exact gives_map gives_documentFrom fun r hr => hr

lemma gives_value {depth : Nat} : Gives (fun r => r.1.KeysOnce) (value depth bs) := by
  cases depth <;> exact gives_document

end Reader

/-- The documents of a stream hold each key once. -/
theorem keysOnce_of_mem_documents {bs : Bytes} {j : Json} (h : .ok j ∈ documents bs) :
    j.KeysOnce := by
  induction hn : bs.length using Nat.strongRecOn generalizing bs with
  | _ length ih =>
    rw [documents] at h
    split at h
    · cases h
    · next b rest hdrop =>
      split at h
      · cases List.mem_singleton.1 h
      · next i n hi =>
        have hlength := congrArg List.length hdrop
        dsimp only at h
        split_ifs at h
        · rcases List.mem_cons.1 h with heq | h
          · cases heq
            exact Reader.gives_value (j, n) hi
          · refine ih _ ?_ h rfl
            simp only [List.length_drop, List.length_cons] at hlength ⊢
            omega
        · cases List.mem_singleton.1 h

end TransactionEngine.Json
