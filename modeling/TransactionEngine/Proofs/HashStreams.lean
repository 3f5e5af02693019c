import Mathlib.Data.List.Infix
import TransactionEngine.Proofs.EqualValues
import TransactionEngine.Proofs.TextBytes

/-!
# Bytes to hash tell values apart

The bytes that are hashed for a value without objects and sets show which value it is and where they
end: numbers take eight bytes, texts end at a byte that occurs in no text, and a kind stands in front
of everything. So no such bytes go on as those of another value, and those of several values one
behind the other are those of no other values.
-/

namespace TransactionEngine

variable {r s : List UInt8}

namespace Hash

lemma littleEndian_injective {m n : UInt64} (h : littleEndian m = littleEndian n) : m = n := by
  simp only [littleEndian, List.map_cons, List.map_nil, List.cons.injEq, and_true,
    ← UInt8.toNat_inj, UInt64.toNat_toUInt8, UInt64.toNat_shiftRight, Nat.shiftRight_eq_div_pow,
    UInt64.reduceToNat, Nat.reduceMod, Nat.reducePow] at h
  have hm := m.toNat_lt
  have hn := n.toNat_lt
  refine UInt64.toNat_inj.1 ?_
  -- Both are below `256 ^ 8` and have the same digits in base 256.
  omega

lemma littleEndian_append_inj {m n : UInt64} (h : littleEndian m ++ r = littleEndian n ++ s) :
    m = n ∧ r = s := by
  obtain ⟨hword, hrest⟩ := List.append_inj h rfl
  exact ⟨littleEndian_injective hword, hrest⟩

end Hash

lemma Kind.stream_append_inj {a b : Kind} (h : a.stream ++ r = b.stream ++ s) : a = b ∧ r = s := by
  obtain ⟨hrank, hrest⟩ := Hash.littleEndian_append_inj h
  refine ⟨?_, hrest⟩
  cases a <;> cases b <;> first | rfl | exact absurd hrank (by decide)

lemma Text.last_not_mem_bytes (s : String) : 0xFF ∉ bytes s := by
  rw [bytes_eq_flatMap, List.mem_flatMap]
  rintro ⟨c, -, hmem⟩
  rcases mem_utf8EncodeChar hmem with ⟨hlt, heq⟩ | ⟨-, -, hlt⟩
  · change 0xFF = c.toNat at heq
    omega
  · exact absurd hlt (by decide)

lemma textStream_append_inj {a b : String} (h : textStream a ++ r = textStream b ++ s) :
    a = b ∧ r = s := by
  have hbefore (t : String) (q : List UInt8) :
      (textStream t ++ q).takeWhile (· != 0xFF) = Text.bytes t := by
    rw [textStream, List.append_assoc, List.takeWhile_append_of_pos]
    · simp
    · intro b hb
      exact bne_iff_ne.2 (ne_of_mem_of_not_mem hb (Text.last_not_mem_bytes t))
  have hbytes : Text.bytes a = Text.bytes b := by rw [← hbefore a r, h, hbefore b s]
  obtain rfl := Text.bytes_injective hbytes
  exact ⟨rfl, List.append_cancel_left h⟩

namespace Value

/-- The value holds, at any depth, no objects and no sets. -/
inductive IsPlain : Value → Prop
  | nil : IsPlain .nil
  | bool (b : Bool) : IsPlain (.bool b)
  | int (n : Int64) : IsPlain (.int n)
  | string (s : String) : IsPlain (.string s)
  | null : IsPlain .null
  | named (name : String) {v : Value} (h : IsPlain v) : IsPlain (.named name v)

variable {v w : Value} {vs ws : List Value}

lemma IsPlain.content_eq (hv : v.IsPlain) : v.content = v := by
  induction hv with
  | named name _ ih => rw [content, ih]
  | _ => rfl

lemma IsPlain.not_mem_parts (hv : v.IsPlain) {o : Object} : o ∉ v.parts := by
  induction hv with
  | named name _ ih => exact ih
  | _ => exact List.not_mem_nil

lemma IsPlain.beq_iff (hv : v.IsPlain) (hw : w.IsPlain) : (v == w) = true ↔ v = w := by
  rw [beq_iff_compare, compare_eq_iff v w fun o ho => absurd ho hv.not_mem_parts, hv.content_eq,
    hw.content_eq]

lemma exists_stream_eq (v : Value) : ∃ bytes, v.stream = v.kind.stream ++ bytes := by
  cases v with
  | nil => exact ⟨[], by rw [List.append_nil]; rfl⟩
  | _ => exact ⟨_, rfl⟩

lemma kind_eq_of_stream (h : v.stream ++ r = w.stream ++ s) : v.kind = w.kind := by
  obtain ⟨bs, hv⟩ := v.exists_stream_eq
  obtain ⟨cs, hw⟩ := w.exists_stream_eq
  rw [hv, hw, List.append_assoc, List.append_assoc] at h
  exact (Kind.stream_append_inj h).1

/-- The bytes for a plain value show which value it is and where they end. -/
theorem IsPlain.stream_append_inj (hv : v.IsPlain) (hw : w.IsPlain)
    (h : v.stream ++ r = w.stream ++ s) : v = w ∧ r = s := by
  -- The kind comes first, so the other value is of the same form.
  have hkind := kind_eq_of_stream h
  induction hv generalizing w with
  | nil =>
    cases hw with
    | nil => exact ⟨rfl, List.append_cancel_left h⟩
    | _ => cases hkind
  | bool a =>
    cases hw with
    | bool b =>
      simp only [stream, List.append_assoc] at h
      obtain ⟨hbit, hrest⟩ := List.cons.inj (Kind.stream_append_inj h).2
      cases a <;> cases b <;> first | exact ⟨rfl, hrest⟩ | cases hbit
    | _ => cases hkind
  | int m =>
    cases hw with
    | int n =>
      simp only [stream, List.append_assoc] at h
      obtain ⟨hword, hrest⟩ := Hash.littleEndian_append_inj (Kind.stream_append_inj h).2
      obtain rfl : m = n := congrArg Int64.ofUInt64 hword
      exact ⟨rfl, hrest⟩
    | _ => cases hkind
  | string a =>
    cases hw with
    | string b =>
      simp only [stream, List.append_assoc] at h
      obtain ⟨rfl, hrest⟩ := textStream_append_inj (Kind.stream_append_inj h).2
      exact ⟨rfl, hrest⟩
    | _ => cases hkind
  | null =>
    cases hw with
    | null => exact ⟨rfl, List.append_cancel_left h⟩
    | _ => cases hkind
  | named a hv ih =>
    cases hw with
    | named b hw =>
      simp only [stream, List.append_assoc] at h
      obtain ⟨rfl, hvalue⟩ := textStream_append_inj (Kind.stream_append_inj h).2
      obtain ⟨rfl, hrest⟩ := ih hw hvalue (kind_eq_of_stream hvalue)
      exact ⟨rfl, hrest⟩
    | _ => cases hkind

lemma IsPlain.eq_of_prefix_stream (hv : v.IsPlain) (hw : w.IsPlain) (h : v.stream <+: w.stream) :
    v = w := by
  obtain ⟨bytes, hbytes⟩ := h
  rw [← List.append_nil w.stream] at hbytes
  exact (hv.stream_append_inj hw hbytes).1

/-! ### Members of sets -/

lemma stream_ne_nil (v : Value) : v.stream ≠ [] := by
  obtain ⟨bytes, h⟩ := v.exists_stream_eq
  rw [h]
  exact List.append_ne_nil_of_left_ne_nil (List.cons_ne_nil _ _) _

/-- The bytes for plain values one behind the other show which values they are. -/
theorem streams_inj (hvs : ∀ v ∈ vs, v.IsPlain) (hws : ∀ w ∈ ws, w.IsPlain)
    (h : streams vs = streams ws) : vs = ws := by
  induction vs generalizing ws with
  | nil =>
    cases ws with
    | nil => rfl
    | cons w ws => exact absurd (List.append_eq_nil_iff.1 h.symm).1 w.stream_ne_nil
  | cons v vs ih =>
    cases ws with
    | nil => exact absurd (List.append_eq_nil_iff.1 h).1 v.stream_ne_nil
    | cons w ws =>
      rw [List.forall_mem_cons] at hvs hws
      obtain ⟨rfl, hrest⟩ := hvs.1.stream_append_inj hws.1 h
      rw [ih hvs.2 hws.2 hrest]

lemma membersStream_inj (hvs : ∀ v ∈ vs, v.IsPlain) (hws : ∀ w ∈ ws, w.IsPlain)
    (h : membersStream vs = membersStream ws) : vs = ws :=
  streams_inj hvs hws (Hash.littleEndian_append_inj h).2

lemma membersStream_contents (vs : List Value) :
    membersStream (contents vs) = membersStream vs := by
  rw [membersStream, length_contents, streams_contents, membersStream]

/-- The bytes that are hashed for two plain values are the same exactly if the values are equal, and
those for neither value are the beginning of the other's. The bytes that are hashed for two sets of
plain values are the same exactly if the sets are equal. -/
theorem stream_unambiguous :
    (∀ v w : Value, v.IsPlain → w.IsPlain →
      (v.stream = w.stream ↔ (v == w) = true) ∧
        ¬(v.stream <+: w.stream ∧ v.stream ≠ w.stream) ∧
        ¬(w.stream <+: v.stream ∧ w.stream ≠ v.stream)) ∧
      ∀ vs ws : List Value, (∀ v ∈ vs, v.IsPlain) → (∀ w ∈ ws, w.IsPlain) →
        (membersStream vs = membersStream ws ↔ (set vs == set ws) = true) := by
  constructor
  · intro v w hv hw
    refine ⟨?_, ?_, ?_⟩
    · rw [hv.beq_iff hw]
      exact ⟨fun h => hv.eq_of_prefix_stream hw (h ▸ List.prefix_rfl), congrArg stream⟩
    · rintro ⟨hfront, hne⟩
      exact hne (congrArg stream (hv.eq_of_prefix_stream hw hfront))
    · rintro ⟨hfront, hne⟩
      exact hne (congrArg stream (hw.eq_of_prefix_stream hv hfront))
  · intro vs ws hvs hws
    have hparts : ∀ o, o ∉ partsOf vs := by
      intro o ho
      obtain ⟨v, hv, ho⟩ := mem_partsOf.1 ho
      exact (hvs v hv).not_mem_parts ho
    rw [beq_iff_compare, compare_set,
      compareMembers_eq_iff vs ws fun o ho => absurd ho (hparts o)]
    constructor
    · intro h
      rw [membersStream_inj hvs hws h]
    · intro h
      rw [← membersStream_contents vs, h, membersStream_contents]

/-- Letters that move from a text to the name before it, or to the member before it, change the
bytes. -/
theorem stream_unambiguous_shifted :
    let v := Value.named "ab" (.named "" (.string "c"))
    let w := Value.named "a" (.named "" (.string "bc"))
    let vs := [Value.string "ab", .int (-1), .null]
    let ws := [Value.string "a", .string "b", .int (-1), .null]
    v.IsPlain ∧ w.IsPlain ∧ (∀ v ∈ vs, v.IsPlain) ∧ (∀ w ∈ ws, w.IsPlain) ∧
      v.stream ≠ w.stream ∧ ¬(v.stream <+: w.stream) ∧ ¬(w.stream <+: v.stream) ∧
      membersStream vs ≠ membersStream ws := by
  intro v w vs ws
  have hv : v.IsPlain := .named _ (.named _ (.string _))
  have hw : w.IsPlain := .named _ (.named _ (.string _))
  have hvs : ∀ v ∈ vs, v.IsPlain :=
    List.forall_mem_cons.2 ⟨.string _, List.forall_mem_cons.2 ⟨.int _,
      List.forall_mem_singleton.2 .null⟩⟩
  have hws : ∀ w ∈ ws, w.IsPlain :=
    List.forall_mem_cons.2 ⟨.string _, List.forall_mem_cons.2 ⟨.string _,
      List.forall_mem_cons.2 ⟨.int _, List.forall_mem_singleton.2 .null⟩⟩⟩
  obtain ⟨hsame, hfront, hback⟩ := stream_unambiguous.1 v w hv hw
  have hne : v.stream ≠ w.stream := fun h => absurd (hsame.1 h) (by decide)
  have hsets : membersStream vs ≠ membersStream ws := fun h =>
    absurd ((stream_unambiguous.2 vs ws hvs hws).1 h) (by decide)
  exact ⟨hv, hw, hvs, hws, hne, fun h => hfront ⟨h, hne⟩, fun h => hback ⟨h, hne.symm⟩, hsets⟩

end Value

end TransactionEngine
