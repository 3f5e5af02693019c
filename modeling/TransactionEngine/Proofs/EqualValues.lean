import TransactionEngine.Command.Regular
import TransactionEngine.Proofs.ValueOrder

/-!
# Equal values cannot be told apart

Two values are equal exactly if they have the same content, which is all that they hold but for the
places of connections and sets. Bytes to hash, hashes, texts and documents are read off the content
alone, so they are the same for equal values, which need not hold the same objects.
-/

namespace TransactionEngine

mutual

/-- A value without word of where its connections and sets are. -/
def Value.content : Value → Value
  | .object o => .object o.content
  | .set members => .set (Value.contents members)
  | .named name v => .named name v.content
  | v => v

/-- An object without word of where it is, unless that alone tells it from others of its type. -/
def Object.content : Object → Object
  | .connection _ id => .connection 0 id
  | .set _ members => .set 0 (Value.contents members)
  | .plugin address type => .plugin address type

def Value.contents : List Value → List Value
  | [] => []
  | v :: vs => v.content :: Value.contents vs

end

namespace Value

@[simp] lemma length_contents (vs : List Value) : (contents vs).length = vs.length := by
  induction vs with
  | nil => rfl
  | cons v vs ih => rw [contents, List.length_cons, ih, List.length_cons]

lemma content_ne_of_kind_ne {v w : Value} (h : v.kind ≠ w.kind) : v.content ≠ w.content := by
  have hkind (u : Value) : u.content.kind = u.kind := by cases u <;> rfl
  intro he
  exact h (by rw [← hkind v, ← hkind w, he])

end Value

lemma Object.PlacesApart.compare_ne {o p : Object} (h : o.PlacesApart p)
    (hne : o.isBuiltIn ≠ p.isBuiltIn) : o.compare p ≠ .eq := by
  rw [compare_of_not_builtIn fun _ hboth => hne (hboth.1.trans hboth.2.symm), ne_eq,
    Ordering.then_eq_eq, Std.LawfulEqOrd.compare_eq_iff_eq, Std.LawfulEqOrd.compare_eq_iff_eq]
  rintro ⟨hname, haddress⟩
  exact hne (h haddress hname)

mutual

/-- Values are equal exactly if they have the same content, where no two objects are in one place. -/
theorem Value.compare_eq_iff (v w : Value) (hp : ∀ o ∈ v.parts, ∀ p ∈ w.parts, o.PlacesApart p) :
    v.compare w = .eq ↔ v.content = w.content :=
  if h : v.kind = w.kind then
    match v, w, h with
    | .nil, .nil, _ | .null, .null, _ => by simp [Value.compare, Value.content]
    | .null, .object _, _ | .object _, .null, _ => by simp [Value.compare, Value.content]
    | .bool a, .bool b, _ | .int a, .int b, _ | .string a, .string b, _ => by
      simp [Value.compare, Value.content]
    | .object o, .object p, _ => by
      simp [Value.compare_object, Value.content, Object.compare_eq_iff o p hp]
    | .set vs, .set ws, _ => by
      simp [Value.compare_set, Value.content, Value.compareMembers_eq_iff vs ws hp]
    | .named a v, .named b w, _ => by
      simp [Value.compare, Value.content, Ordering.then_eq_eq, Value.compare_eq_iff v w hp]
  else by
    have hrank : v.kind.rank ≠ w.kind.rank := fun he => h (Kind.rank_injective he)
    simp [Value.compare_of_kind_ne h, hrank, Value.content_ne_of_kind_ne h]

theorem Object.compare_eq_iff (o p : Object)
    (hp : ∀ q ∈ o.parts, ∀ r ∈ p.parts, q.PlacesApart r) :
    o.compare p = .eq ↔ o.content = p.content :=
  have hself : o.PlacesApart p := hp o o.mem_parts_self p p.mem_parts_self
  match o, p with
  | .connection _ a, .connection _ b => by simp [Object.compare, Object.content]
  | .set _ vs, .set _ ws => by
    have hmembers : ∀ o ∈ Value.partsOf vs, ∀ p ∈ Value.partsOf ws, o.PlacesApart p :=
      fun o ho p hq => hp o (.tail _ ho) p (.tail _ hq)
    simp [Object.compare, Object.content, Value.compareMembers_eq_iff vs ws hmembers]
  | .plugin a s, .plugin b t => by
    simp [Object.compare, Object.content, Object.typeName, Object.address, Ordering.then_eq_eq,
      and_comm]
  | .connection .., .set .. | .set .., .connection .. => by
    simp [Object.compare, Object.content, Object.typeName, Ordering.then_eq_eq]
  | .connection .., .plugin .. | .plugin .., .connection ..
  | .set .., .plugin .. | .plugin .., .set .. => by
    exact iff_of_false (hself.compare_ne (by simp [Object.isBuiltIn])) (by simp [Object.content])

theorem Value.compareMembers_eq_iff (vs ws : List Value)
    (hp : ∀ o ∈ Value.partsOf vs, ∀ p ∈ Value.partsOf ws, o.PlacesApart p) :
    Value.compareMembers vs ws = .eq ↔ Value.contents vs = Value.contents ws :=
  match vs, ws with
  | [], [] | [], _ :: _ | _ :: _, [] => by simp [Value.compareMembers, Value.contents]
  | v :: vs, w :: ws => by
    have hhead := Value.forall_parts_of_mem hp List.mem_cons_self List.mem_cons_self
    have htail := Value.forall_partsOf_of_subset hp (List.subset_cons_self v vs)
      (List.subset_cons_self w ws)
    simp [Value.compareMembers, Value.contents, Ordering.then_eq_eq,
      Value.compare_eq_iff v w hhead, Value.compareMembers_eq_iff vs ws htail]

end

/-! ### What is read off a value is read off its content -/

mutual

theorem Value.stream_content (v : Value) : v.content.stream = v.stream :=
  match v with
  | .nil | .bool _ | .int _ | .string _ | .null => rfl
  | .object o => by rw [Value.content, Value.stream, Value.stream, Object.stream_content o]
  | .set members => by
    rw [Value.content, Value.stream, Value.stream, Value.streams_contents members,
      Value.length_contents]
  | .named _ v => by rw [Value.content, Value.stream, Value.stream, Value.stream_content v]

theorem Object.stream_content (o : Object) : o.content.stream = o.stream :=
  match o with
  | .connection .. | .plugin .. => rfl
  | .set _ members => by
    rw [Object.content, Object.stream, Object.stream, Value.streams_contents members,
      Value.length_contents]

theorem Value.streams_contents (vs : List Value) :
    Value.streams (Value.contents vs) = Value.streams vs :=
  match vs with
  | [] => rfl
  | v :: vs => by
    rw [Value.contents, Value.streams, Value.streams, Value.stream_content v,
      Value.streams_contents vs]

end

mutual

theorem Value.toJson_content (v : Value) : v.content.toJson = v.toJson :=
  match v with
  | .nil | .bool _ | .int _ | .string _ | .null => rfl
  | .object o => by rw [Value.content, Value.toJson, Value.toJson, Object.toJson_content o]
  | .set members => by rw [Value.content, Value.toJson, Value.toJson, Value.toJsons_contents members]
  | .named _ v => by rw [Value.content, Value.toJson, Value.toJson, Value.toJson_content v]

theorem Object.toJson_content (o : Object) : o.content.toJson = o.toJson :=
  match o with
  | .connection .. | .plugin .. => rfl
  | .set _ members => by
    rw [Object.content, Object.toJson, Object.toJson, Value.toJsons_contents members]

theorem Value.toJsons_contents (vs : List Value) :
    Value.toJsons (Value.contents vs) = Value.toJsons vs :=
  match vs with
  | [] => rfl
  | v :: vs => by
    rw [Value.contents, Value.toJsons, Value.toJsons, Value.toJson_content v,
      Value.toJsons_contents vs]

end

lemma Object.display_content (o : Object) : o.content.display = o.display := by
  cases o with
  | connection => rfl
  | plugin => rfl
  | set address members =>
    change (Object.content _).toJson.compact = (Object.toJson _).compact
    rw [Object.toJson_content]

mutual

theorem Value.display_content (v : Value) : v.content.display = v.display :=
  match v with
  | .nil | .bool _ | .int _ | .string _ | .null => rfl
  | .object o => by rw [Value.content, Value.display, Value.display, Object.display_content o]
  | .set members => by
    rw [Value.content, Value.display, Value.display, Value.displays_contents members]
  | .named _ v => by rw [Value.content, Value.display, Value.display, Value.display_content v]

theorem Value.displays_contents (vs : List Value) :
    Value.displays (Value.contents vs) = Value.displays vs :=
  match vs with
  | [] => rfl
  | v :: vs => by
    rw [Value.contents, Value.displays, Value.displays, Value.display_content v,
      Value.displays_contents vs]

end

namespace Value

lemma hashMembers_contents (vs : List Value) : hashMembers (contents vs) = hashMembers vs := by
  rw [hashMembers, membersStream, streams_contents, length_contents]
  rfl

lemma hash_content (v : Value) : v.content.hash = v.hash := by
  cases v with
  | object o =>
    cases o with
    | connection => rfl
    | plugin => rfl
    | set address members =>
      change Except.ok (hashMembers (contents members)) = Except.ok (hashMembers members)
      rw [hashMembers_contents]
  | set members =>
    change Except.ok (hashMembers (contents members)) = Except.ok (hashMembers members)
    rw [hashMembers_contents]
  | named name v =>
    change Except.ok (Hash.sipHash (content (named name v)).stream) = _
    rw [stream_content]
    rfl
  | nil | bool | int | string | null => rfl

lemma hash_cases (v : Value) :
    (∃ h, v.hash = .ok h) ∨ ∃ type, v.hash = .error (.unsupported type .hash) := by
  cases v with
  | object o =>
    cases o with
    | connection => exact .inl ⟨_, rfl⟩
    | set => exact .inl ⟨_, rfl⟩
    | plugin => exact .inr ⟨_, rfl⟩
  | _ => exact .inl ⟨_, rfl⟩

lemma apply_hash (host : Host) (v : Value) :
    RegularCommand.hash.apply host [v] =
      .single [v] (v.hash.map fun h => .int h.toInt64) := by
  change Applied.single [v] (v.hash.bind _) = _
  cases v.hash <;> rfl

/-- Equal values have the same bytes to hash, the same answer of the hash command, the same text and
the same wire form. -/
theorem equal_values_alike {v w : Value} (hp : PlacesApart [v, w]) (h : (v == w) = true) :
    v.stream = w.stream ∧
      (∃ result, (∀ host, RegularCommand.hash.apply host [v] = .single [v] result) ∧
        (∀ host, RegularCommand.hash.apply host [w] = .single [w] result) ∧
        ((∃ n, result = .ok (.int n)) ∨ ∃ type, result = .error (.unsupported type .hash))) ∧
      v.display = w.display ∧ v.toJson = w.toJson := by
  have hplaces : ∀ o ∈ v.parts, ∀ p ∈ w.parts, o.PlacesApart p :=
    forall_parts_of_mem hp List.mem_cons_self (List.mem_cons_of_mem v (List.mem_singleton_self w))
  have hc : v.content = w.content :=
    (compare_eq_iff v w hplaces).1 ((beq_iff_compare v w).1 h)
  have hhash : v.hash = w.hash := by rw [← hash_content v, hc, hash_content]
  refine ⟨?_, ⟨v.hash.map fun h => .int h.toInt64, ?_, ?_, ?_⟩, ?_, ?_⟩
  · rw [← stream_content v, hc, stream_content]
  · intro host
    exact apply_hash host v
  · intro host
    rw [hhash]
    exact apply_hash host w
  · obtain ⟨n, hn⟩ | ⟨type, ht⟩ := hash_cases v
    · exact .inl ⟨n.toInt64, by rw [hn]; rfl⟩
    · exact .inr ⟨type, by rw [ht]; rfl⟩
  · rw [← display_content v, hc, display_content]
  · rw [← toJson_content v, hc, toJson_content]

/-- A connection and a set in other places, inside of a set that a named value holds, beside an object
of another type that is named as sets are. -/
theorem equal_values_alike_elsewhere :
    let v (a b : Nat) : Value :=
      .named "k" (.set [.int 1, .object (.connection a 7), .object (.plugin 3 "set"),
        .object (.set b [.null, .string "x"])])
    PlacesApart [v 1 4, v 8 9] ∧ ((v 1 4 == v 8 9) = true) ∧
      (v 1 4).stream = (v 8 9).stream ∧
      (∃ result, (∀ host, RegularCommand.hash.apply host [v 1 4] = .single [v 1 4] result) ∧
        (∀ host, RegularCommand.hash.apply host [v 8 9] = .single [v 8 9] result) ∧
        ((∃ n, result = .ok (.int n)) ∨ ∃ type, result = .error (.unsupported type .hash))) ∧
      (v 1 4).display = (v 8 9).display ∧ (v 1 4).toJson = (v 8 9).toJson := by
  intro v
  have hp : PlacesApart [v 1 4, v 8 9] := by decide
  have h : (v 1 4 == v 8 9) = true := by
    have hplaces : ∀ o ∈ (v 1 4).parts, ∀ p ∈ (v 8 9).parts, o.PlacesApart p := by decide
    exact (beq_iff_compare _ _).2 ((compare_eq_iff _ _ hplaces).2 rfl)
  exact ⟨hp, h, equal_values_alike hp h⟩

end Value

end TransactionEngine
