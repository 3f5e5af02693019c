import Mathlib.Algebra.Ring.Int.Defs
import TransactionEngine.Proofs.CompactDocuments
import TransactionEngine.Proofs.EqualValues
import TransactionEngine.Proofs.ReplyLines
import TransactionEngine.Proofs.TextBytes

/-!
# What is sent tells the replies apart

The documents of values whose objects are built in are the same only for equal values, so the bytes
that are sent for two replies are the same exactly if the replies are equal. The bytes of many
replies fall apart at the newlines into those of each.
-/

namespace TransactionEngine

/-- The value holds, at any depth, no other objects than connections and sets. -/
inductive Value.IsBuiltIn : Value → Prop
  | nil : IsBuiltIn .nil
  | bool (b : Bool) : IsBuiltIn (.bool b)
  | int (n : Int64) : IsBuiltIn (.int n)
  | string (s : String) : IsBuiltIn (.string s)
  | null : IsBuiltIn .null
  | connection (address : Nat) (id : UInt64) : IsBuiltIn (.object (.connection address id))
  | sharedSet (address : Nat) {members : List Value} (h : ∀ v ∈ members, IsBuiltIn v) :
    IsBuiltIn (.object (.set address members))
  | set {members : List Value} (h : ∀ v ∈ members, IsBuiltIn v) : IsBuiltIn (.set members)
  | named (name : String) {v : Value} (h : IsBuiltIn v) : IsBuiltIn (.named name v)

mutual

theorem Value.exact_toJson (v : Value) : v.toJson.Exact :=
  match v with
  | .nil | .null | .bool _ | .int _ | .string _ => by simp [Value.toJson]
  | .object o => by simp [Value.toJson, Object.exact_toJson o]
  | .set members => by simpa [Value.toJson] using Value.exact_toJsons members
  | .named _ v => by simp [Value.toJson, Value.exact_toJson v]

theorem Object.exact_toJson (o : Object) : o.toJson.Exact :=
  match o with
  | .connection .. | .plugin .. => by simp [Object.toJson]
  | .set _ members => by simpa [Object.toJson] using Value.exact_toJsons members

theorem Value.exact_toJsons (vs : List Value) : ∀ j ∈ Value.toJsons vs, j.Exact :=
  match vs with
  | [] => nofun
  | v :: vs => by
    rw [Value.toJsons, List.forall_mem_cons]
    exact ⟨Value.exact_toJson v, Value.exact_toJsons vs⟩

end

namespace Value

lemma toJsons_inj {vs ws : List Value}
    (hv : ∀ v ∈ vs, ∀ w ∈ ws, v.toJson = w.toJson → v.content = w.content)
    (h : toJsons vs = toJsons ws) : contents vs = contents ws := by
  induction vs generalizing ws with
  | nil =>
    cases ws with
    | nil => rfl
    | cons w ws => cases h
  | cons v vs ih =>
    cases ws with
    | nil => cases h
    | cons w ws =>
      obtain ⟨hhead, htail⟩ := List.cons.inj h
      rw [contents, contents, hv v List.mem_cons_self w List.mem_cons_self hhead,
        ih (fun v hm w hn => hv v (.tail _ hm) w (.tail _ hn)) htail]

/-- Values whose objects are built in hold the same if their documents are the same. -/
theorem IsBuiltIn.content_eq {v w : Value} (hv : v.IsBuiltIn) (hw : w.IsBuiltIn)
    (h : v.toJson = w.toJson) : v.content = w.content := by
  induction hv generalizing w with
  | nil | bool | int | string | null | connection =>
    cases hw <;> simp_all [toJson, Object.toJson, content, Object.content, Int64.toInt_inj,
      UInt64.toNat_inj]
  | @sharedSet address members hmembers ih =>
    cases hw with
    | @sharedSet address' members' hmembers' =>
      have h : toJsons members = toJsons members' := by simpa [toJson, Object.toJson] using h
      rw [content, Object.content, toJsons_inj (fun v hv w hw => ih v hv (hmembers' w hw)) h]
      rfl
    | _ => simp [toJson, Object.toJson] at h
  | @set members hmembers ih =>
    cases hw with
    | @set members' hmembers' =>
      have h : toJsons members = toJsons members' := by simpa [toJson] using h
      rw [content, content, toJsons_inj (fun v hv w hw => ih v hv (hmembers' w hw)) h]
    | _ => simp [toJson] at h
  | @named name v hv ih =>
    cases hw with
    | @named name' w hw =>
      obtain ⟨rfl, hvalue⟩ : name = name' ∧ v.toJson = w.toJson := by simpa [toJson] using h
      rw [content, content, ih hw hvalue]
    | _ => simp [toJson] at h

lemma IsBuiltIn.isBuiltIn_parts {v : Value} (hv : v.IsBuiltIn) :
    ∀ o ∈ v.parts, o.isBuiltIn = true := by
  have hmembers {members : List Value}
      (ih : ∀ v ∈ members, ∀ o ∈ v.parts, o.isBuiltIn = true) :
      ∀ o ∈ partsOf members, o.isBuiltIn = true := by
    intro o ho
    obtain ⟨v, hv, ho⟩ := mem_partsOf.1 ho
    exact ih v hv o ho
  induction hv with
  | connection => exact List.forall_mem_singleton.2 rfl
  | sharedSet address _ ih => exact List.forall_mem_cons.2 ⟨rfl, hmembers ih⟩
  | set _ ih => exact hmembers ih
  | named _ _ ih => exact ih
  | _ => exact nofun

lemma IsBuiltIn.compare_eq_iff {v w : Value} (hv : v.IsBuiltIn) (hw : w.IsBuiltIn) :
    v.compare w = .eq ↔ v.content = w.content :=
  Value.compare_eq_iff v w fun o ho p hp _ _ =>
    (hv.isBuiltIn_parts o ho).trans (hw.isBuiltIn_parts p hp).symm

/-- Values whose objects are built in are equal exactly if their documents are the same. -/
theorem IsBuiltIn.toJson_eq_iff {v w : Value} (hv : v.IsBuiltIn) (hw : w.IsBuiltIn) :
    v.toJson = w.toJson ↔ (v == w) = true := by
  rw [beq_iff_compare, hv.compare_eq_iff hw]
  refine ⟨hv.content_eq hw, fun h => ?_⟩
  rw [← toJson_content v, h, toJson_content w]

lemma toJson_ne_null (v : Value) : v.toJson ≠ .null := by
  cases v <;> simp [toJson]

end Value

namespace Text

lemma newline_not_mem_bytes {s : String} (h : '\n' ∉ s.toList) : 10 ∉ bytes s := by
  rw [bytes_eq_flatMap, List.mem_flatMap]
  rintro ⟨c, hc, hmem⟩
  exact h (eq_of_mem_utf8EncodeChar hmem (by decide) ▸ hc)

end Text

/-! ### Replies -/

namespace Reply

/-- The value of the reply, if there is one, holds no other objects than connections and sets. -/
def IsBuiltIn : Reply → Prop
  | value _ v => ∀ w ∈ v, w.IsBuiltIn
  | error .. => True

lemma idJson_inj {i j : Option UInt64} : idJson i = idJson j ↔ i = j := by
  cases i <;> cases j <;> simp [idJson, UInt64.toNat_inj]

lemma exact_toJson (r : Reply) : r.toJson.Exact := by
  have hid (i : Option UInt64) : (idJson i).Exact := by cases i <;> simp [idJson]
  cases r with
  | value i v => cases v <;> simp [toJson, hid, Value.exact_toJson]
  | error i e => simp [toJson, errorJson, hid]

lemma errorJson_inj {e f : Error} :
    errorJson e = errorJson f ↔
      e.code = f.code ∧ e.description = f.description ∧ e.cause = f.cause := by
  simp [errorJson]

lemma toJson_eq_iff {r s : Reply} (hr : r.IsBuiltIn) (hs : s.IsBuiltIn) :
    r.toJson = s.toJson ↔ (r == s) = true := by
  cases r with
  | value i v =>
    cases s with
    | value j w =>
      have hbeq : (value i v == value j w) = (i == j && v == w) := rfl
      have hvalue : (v.map Value.toJson).getD .null = (w.map Value.toJson).getD .null ↔
          (v == w) = true := by
        cases v with
        | none => cases w <;> simp [(Value.toJson_ne_null _).symm]
        | some v =>
          cases w with
          | none => simp [Value.toJson_ne_null]
          | some w => simp [(hr v rfl).toJson_eq_iff (hs w rfl)]
      simp [toJson, idJson_inj, hvalue, hbeq]
    | error j f => exact iff_of_false (by simp [toJson]) nofun
  | error i e =>
    cases s with
    | value j w => exact iff_of_false (by simp [toJson]) nofun
    | error j f =>
      have hbeq : (error i e == error j f) =
        (i == j && e.code == f.code && e.description == f.description && e.cause == f.cause) := rfl
      simp [toJson, idJson_inj, errorJson_inj, hbeq, and_assoc]

lemma encode_eq_text (r : Reply) : r.encode = Text.bytes r.text ++ [10] := by
  rw [encode, line, Text.bytes_append]
  rfl

lemma encode_eq_iff {r s : Reply} : r.encode = s.encode ↔ r.toJson = s.toJson := by
  rw [encode_eq_text, encode_eq_text]
  constructor
  · intro h
    have htext := Text.bytes_injective (List.append_cancel_right h)
    exact r.exact_toJson.eq_of_compact_eq s.exact_toJson htext
  · intro h
    rw [text, h, text]

lemma splitOn_encodes (rs : List Reply) :
    (rs.flatMap encode).splitOn 10 = rs.map (fun r => Text.bytes r.text) ++ [[]] := by
  induction rs with
  | nil => rfl
  | cons r rs ih =>
    have hnewline := Text.newline_not_mem_bytes r.line_eq.2
    rw [List.flatMap_cons, encode_eq_text, List.append_assoc, List.singleton_append,
      List.splitOn_append_cons_self, List.splitOn_eq_singleton hnewline, ih]
    rfl

/-- The bytes for two replies with built-in objects are the same exactly if the replies are equal.
The bytes for a reply are those of its text and a newline, which is the only one; so the bytes for
any replies fall apart at the newlines into those of each. -/
theorem encode_faithful :
    (∀ r s : Reply, r.IsBuiltIn → s.IsBuiltIn → (r.encode = s.encode ↔ (r == s) = true)) ∧
      (∀ r : Reply, r.encode = Text.bytes r.text ++ [10] ∧ 10 ∉ Text.bytes r.text) ∧
      ∀ rs : List Reply,
        (rs.flatMap encode).splitOn 10 = rs.map (fun r => Text.bytes r.text) ++ [[]] := by
  refine ⟨fun r s hr hs => ?_, fun r => ⟨r.encode_eq_text, ?_⟩, splitOn_encodes⟩
  · rw [encode_eq_iff, toJson_eq_iff hr hs]
  · exact Text.newline_not_mem_bytes r.line_eq.2

/-- No value and nil, a set and a reference to one are told apart; two references to one set are not,
and texts with newlines stand on one line. -/
theorem encode_faithful_told_apart :
    let members : List Value := [.named "a\nb" (.string "\n"), .null]
    let nothing : Reply := .value 1 none
    let nil : Reply := .value 1 (some .nil)
    let set : Reply := .value 1 (some (.set members))
    let shared (address : Nat) : Reply := .value 1 (some (.object (.set address members)))
    (set.IsBuiltIn ∧ nothing.IsBuiltIn ∧ nil.IsBuiltIn ∧ ∀ address, (shared address).IsBuiltIn) ∧
      nothing.encode ≠ nil.encode ∧ set.encode ≠ (shared 5).encode ∧
      (shared 5).encode = (shared 6).encode ∧
      ([nil, set].flatMap encode).splitOn 10 = [Text.bytes nil.text, Text.bytes set.text, []] := by
  intro members nothing nil set shared
  have hmembers : ∀ v ∈ members, v.IsBuiltIn := by
    rw [List.forall_mem_cons, List.forall_mem_singleton]
    exact ⟨.named _ (.string _), .null⟩
  have hnothing : nothing.IsBuiltIn := nofun
  have hnil : nil.IsBuiltIn := by
    rintro _ ⟨⟩
    exact .nil
  have hset : set.IsBuiltIn := by
    rintro _ ⟨⟩
    exact .set hmembers
  have hshared (address : Nat) : (shared address).IsBuiltIn := by
    rintro _ ⟨⟩
    exact .sharedSet address hmembers
  refine ⟨⟨hset, hnothing, hnil, hshared⟩, ?_, ?_, ?_, encode_faithful.2.2 [nil, set]⟩
  · rw [Ne, encode_faithful.1 _ _ hnothing hnil]
    nofun
  · rw [Ne, encode_faithful.1 _ _ hset (hshared 5)]
    change ¬(Value.set members == .object (.set 5 members)) = true
    rw [Value.beq_iff_compare, (hset _ rfl).compare_eq_iff (hshared 5 _ rfl)]
    nofun
  · rw [encode_faithful.1 _ _ (hshared 5) (hshared 6)]
    change (Value.object (.set 5 members) == .object (.set 6 members)) = true
    rw [Value.beq_iff_compare, (hshared 5 _ rfl).compare_eq_iff (hshared 6 _ rfl)]
    rfl

end Reply

end TransactionEngine
