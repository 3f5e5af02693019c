import Mathlib.Data.List.Permutation
import TransactionEngine.Message.Decode
import TransactionEngine.Proofs.EnvelopeFields
import TransactionEngine.Proofs.MessageNumbers
import TransactionEngine.Proofs.SortedLookup
import TransactionEngine.Proofs.ValueOrder

/-!
# The grammar of transactions

Which documents write which transactions. Decoding accepts exactly what is written by this grammar
and gives what is written; and every transaction that holds nothing but positions, scalars, named
scalars and sets of scalars can be written.
-/

namespace TransactionEngine

/-- The document of a value that has no parts. -/
inductive Value.Written : Json → Value → Prop
  | nil : Written .null .nil
  | bool (b : Bool) : Written (.bool b) (.bool b)
  | int (n : Int64) : Written (.int n.toInt) (.int n)
  | string (s : String) : Written (.string s) (.string s)

/-- The document of an argument. -/
inductive Argument.Written : Json → Argument → Prop
  | scalar {j : Json} {v : Value} (h : v.Written j) : Written j (.direct v)
  | position (p : Int64) : Written (.object [("pos", .int p.toInt)]) (.position p)
  | named {j : Json} {v : Value} {name : String} {fields : List (String × Json)}
    (hfields : fields.Perm [("name", .string name), ("value", j)]) (h : Value.Written j v) :
    Written (.object fields) (.direct (.named name v))
  | set {items : List Json} {members : List Value} (h : List.Forall₂ Value.Written items members) :
    Written (.array items) (.direct (Value.setOf members))

/-- The fields of the object of a statement: the name of its command, and its arguments in their
order, or null if there are none. -/
inductive Statement.Written : List (String × Json) → Statement → Prop
  | bare (c : Command) : Written [(c.name, .null)] ⟨c, []⟩
  | list {c : Command} {items : List Json} {arguments : List Argument}
    (h : List.Forall₂ Argument.Written items arguments) :
    Written [(c.name, .array items)] ⟨c, arguments⟩

/-- What the fields of a message say about a transaction. -/
structure Transaction.Written (e : Envelope) (t : Transaction) : Prop where
  id : t.id = e.uid
  flags : ∀ word ∈ e.flags, word = "EXEC" ∨ word = "REGISTER"
  exec : t.flags.exec = true ↔ "EXEC" ∈ e.flags
  register : t.flags.register = true ↔ "REGISTER" ∈ e.flags
  name : t.name = e.name.getD ""
  named : "REGISTER" ∈ e.flags → e.name.isSome
  event : t.event = e.event
  connectionId : t.connectionId = none
  statements : List.Forall₂ Statement.Written e.cmds t.statements

lemma Json.asInt64?_eq_some_iff {j : Json} {n : Int64} : j.asInt64? = some n ↔ j = .int n.toInt := by
  cases j with
  | int m =>
    rw [asInt64?, Json.int.injEq]
    split_ifs with h
    · simp only [Bool.and_eq_true, decide_eq_true_eq] at h
      rw [Option.some.injEq]
      constructor
      · rintro rfl
        exact (Int64.toInt_ofInt_of_le h.1 (Int.lt_of_le_of_lt h.2 (by decide))).symm
      · rintro rfl
        exact Int64.ofInt_toInt n
    · refine iff_of_false nofun ?_
      rintro rfl
      simp only [Bool.and_eq_true, decide_eq_true_eq] at h
      exact h ⟨n.minValue_le_toInt, n.toInt_le⟩
  | _ => simp [asInt64?]

namespace Incoming

lemma literal_eq_ok_iff {j : Json} {v : Value} : literal j = .ok v ↔ Value.Written j v := by
  constructor
  · intro h
    unfold literal at h
    split at h
    · cases h
      exact .nil
    · cases h
      exact .bool _
    · cases h
      exact .string _
    · split at h
      · next n m hm =>
        cases h
        rw [Json.asInt64?_eq_some_iff.1 hm]
        exact .int m
      · cases h
    · cases h
    · cases h
  · rintro (_ | b | n | s)
    · rfl
    · rfl
    · rw [literal, Json.asInt64?_eq_some_iff.2 rfl]
    · rfl

/-- Two fields are a name and a value, in either order, exactly if both are found. -/
lemma perm_pair_iff {a b : String × Json} {x y : Json} :
    [a, b].Perm [("name", x), ("value", y)] ↔
      [a, b].lookup "name" = some x ∧ [a, b].lookup "value" = some y := by
  obtain ⟨k, j⟩ := a
  obtain ⟨l, m⟩ := b
  rw [List.perm_pair]
  constructor
  · rintro (⟨⟨⟩⟩ | ⟨⟨⟩⟩) <;> exact ⟨rfl, rfl⟩
  · simp only [List.lookup_cons, List.lookup_nil]
    rintro ⟨hname, hvalue⟩
    split at hname <;> split at hvalue <;> grind

/-- An object of two fields writes the value that is named by them, and nothing else. -/
lemma written_pair_iff {a b : String × Json} {x : Argument} :
    Argument.Written (.object [a, b]) x ↔ ∃ name j v, [a, b].lookup "name" = some (.string name) ∧
      [a, b].lookup "value" = some j ∧ Value.Written j v ∧ x = .direct (.named name v) := by
  constructor
  · intro h
    cases h with
    | scalar h => cases h
    | named hfields h =>
      obtain ⟨hname, hvalue⟩ := perm_pair_iff.1 hfields
      exact ⟨_, _, _, hname, hvalue, h, rfl⟩
  · rintro ⟨name, j, v, hname, hvalue, h, rfl⟩
    exact .named (perm_pair_iff.2 ⟨hname, hvalue⟩) h

lemma argument_pair_eq_ok_iff {a b : String × Json} {x : Argument} :
    argument (.object [a, b]) = .ok x ↔ Argument.Written (.object [a, b]) x := by
  rw [written_pair_iff]
  simp only [argument, Json.field?]
  cases hname : [a, b].lookup "name" with
  | none => simp [map_eq_ok_iff, literal, refuse]
  | some name =>
    cases hvalue : [a, b].lookup "value" with
    | none => cases name <;> simp [Json.asString?, refuse]
    | some j => cases name <;> simp [Json.asString?, refuse, map_eq_ok_iff, literal_eq_ok_iff, @eq_comm _ x]

lemma argument_eq_ok_iff {j : Json} {a : Argument} :
    argument j = .ok a ↔ Argument.Written j a := by
  constructor
  · intro h
    unfold argument at h
    split at h
    · split at h
      · next p hp =>
        cases h
        rw [Json.asInt64?_eq_some_iff.1 hp]
        exact .position p
      · cases h
    · -- Which equation of `argument` applies to two fields hangs on the first key, so `h` is not
      -- the equation of the lemma by unfolding alone.
      refine argument_pair_eq_ok_iff.1 ?_
      simpa only [argument] using h
    · obtain ⟨members, hmembers, rfl⟩ := map_eq_ok_iff.1 h
      refine .set ?_
      simpa only [mapM_eq_ok_iff, literal_eq_ok_iff] using hmembers
    · obtain ⟨v, hv, rfl⟩ := map_eq_ok_iff.1 h
      exact .scalar (literal_eq_ok_iff.1 hv)
  · intro h
    cases h with
    | scalar h =>
      have hj : argument j = (literal j).map .direct := by cases h <;> rfl
      rw [hj, literal_eq_ok_iff.2 h]
      rfl
    | position p => rw [argument, Json.asInt64?_eq_some_iff.2 rfl]
    | named hfields h =>
      obtain ⟨x, y, rfl⟩ := List.length_eq_two.1 hfields.length_eq
      exact argument_pair_eq_ok_iff.2 (.named hfields h)
    | set h =>
      refine map_eq_ok_iff.2 ⟨_, ?_, rfl⟩
      simpa only [mapM_eq_ok_iff, literal_eq_ok_iff] using h

lemma statement_eq_ok_iff {fields : List (String × Json)} {s : Statement} :
    statement fields = .ok s ↔ Statement.Written fields s := by
  constructor
  · intro h
    unfold statement at h
    split at h
    · obtain ⟨c, hc, h⟩ := bind_eq_ok_iff.1 h
      obtain rfl := Command.find_eq_ok_iff.1 hc
      split at h
      · obtain ⟨arguments, harguments, ⟨⟩⟩ := bind_eq_ok_iff.1 h
        refine .list ?_
        simpa only [mapM_eq_ok_iff, argument_eq_ok_iff] using harguments
      · cases h
        exact .bare c
      · cases h
    · cases h
  · intro h
    cases h with
    | bare c => exact bind_eq_ok_iff.2 ⟨c, Command.find_eq_ok_iff.2 rfl, rfl⟩
    | @list c items arguments h =>
      have harguments : items.mapM argument = .ok arguments := by
        simpa only [mapM_eq_ok_iff, argument_eq_ok_iff] using h
      exact bind_eq_ok_iff.2 ⟨c, Command.find_eq_ok_iff.2 rfl,
        bind_eq_ok_iff.2 ⟨arguments, harguments, rfl⟩⟩

lemma addFlag_eq_ok_iff {f g : Flags} {word : String} :
    addFlag f word = .ok g ↔ (word = "EXEC" ∨ word = "REGISTER") ∧
      g = ⟨f.exec || "EXEC" == word, f.register || "REGISTER" == word⟩ := by
  rw [addFlag]
  split_ifs with hexec hregister
  · subst hexec
    simp [eq_comm]
  · subst hregister
    simp [eq_comm]
  · simp [refuse, hexec, hregister]

lemma foldlM_addFlag_eq_ok_iff {words : List String} {f g : Flags} :
    words.foldlM addFlag f = .ok g ↔ (∀ word ∈ words, word = "EXEC" ∨ word = "REGISTER") ∧
      g = ⟨f.exec || words.contains "EXEC", f.register || words.contains "REGISTER"⟩ := by
  induction words generalizing f with
  | nil =>
    rw [List.foldlM_nil]
    simp [pure, Except.pure, eq_comm]
  | cons word words ih =>
    simp only [List.foldlM_cons, bind_eq_ok_iff, addFlag_eq_ok_iff, ih, List.forall_mem_cons,
      List.contains_cons, ← Bool.or_assoc]
    constructor
    · rintro ⟨f, ⟨hword, rfl⟩, hwords, hg⟩
      exact ⟨⟨hword, hwords⟩, hg⟩
    · rintro ⟨⟨hword, hwords⟩, hg⟩
      exact ⟨_, ⟨hword, rfl⟩, hwords, hg⟩

lemma flags_eq_ok_iff {words : List String} {f : Flags} :
    flags words = .ok f ↔ (∀ word ∈ words, word = "EXEC" ∨ word = "REGISTER") ∧
      (f.exec = true ↔ "EXEC" ∈ words) ∧ (f.register = true ↔ "REGISTER" ∈ words) := by
  obtain ⟨exec, register⟩ := f
  rw [flags, foldlM_addFlag_eq_ok_iff]
  grind

lemma transactionName_eq_ok_iff {f : Flags} {name : Option String} {s : String} :
    transactionName f name = .ok s ↔ s = name.getD "" ∧ (f.register = true → name.isSome) := by
  cases name with
  | none =>
    rw [transactionName]
    cases f.register <;> simp [refuse]
  | some name => simp [transactionName, @eq_comm _ s]

/-- A transaction is accepted exactly if it is written by the grammar, and is the one written. -/
theorem transaction_eq_ok_iff {e : Envelope} {t : Transaction} :
    transaction e = .ok t ↔ Transaction.Written e t := by
  simp only [transaction, bind_eq_ok_iff, flags_eq_ok_iff, transactionName_eq_ok_iff,
    mapM_eq_ok_iff, statement_eq_ok_iff]
  constructor
  · rintro ⟨f, ⟨hwords, hexec, hregister⟩, name, ⟨rfl, hname⟩, statements, hstatements, ⟨⟩⟩
    exact ⟨rfl, hwords, hexec, hregister, rfl, fun h => hname (hregister.2 h), rfl, rfl, hstatements⟩
  · intro h
    obtain ⟨id, name, f, connectionId, event, statements⟩ := t
    obtain ⟨rfl, hwords, hexec, hregister, rfl, hname, rfl, rfl, hstatements⟩ := h
    exact ⟨f, ⟨hwords, hexec, hregister⟩, _, ⟨rfl, fun h => hname (hregister.1 h)⟩, statements,
      hstatements, rfl⟩

end Incoming

/-! ### Writing transactions -/

/-- The value has no parts. -/
def Value.IsScalar : Value → Prop
  | .nil | .bool _ | .int _ | .string _ => True
  | _ => False

/-- The argument is a position, a scalar, a named scalar or a set of scalars. The members of a set
stand in its order. -/
inductive Argument.IsPlain : Argument → Prop
  | position (p : Int64) : IsPlain (.position p)
  | scalar {v : Value} (h : v.IsScalar) : IsPlain (.direct v)
  | named (name : String) {v : Value} (h : v.IsScalar) : IsPlain (.direct (.named name v))
  | set {members : List Value} (hscalar : ∀ v ∈ members, v.IsScalar)
    (hsorted : members.Pairwise fun v w => v.compare w = .lt) : IsPlain (.direct (.set members))

/-- The document of a scalar. Other values are not written by themselves. -/
def Value.document : Value → Json
  | .bool b => .bool b
  | .int n => .int n.toInt
  | .string s => .string s
  | _ => .null

def Argument.document : Argument → Json
  | .position p => .object [("pos", .int p.toInt)]
  | .direct (.named name v) => .object [("name", .string name), ("value", v.document)]
  | .direct (.set members) => .array (members.map Value.document)
  | .direct v => v.document

def Statement.document (s : Statement) : List (String × Json) :=
  [(s.command.name, .array (s.arguments.map Argument.document))]

def Flags.words (f : Flags) : List String :=
  (if f.exec then ["EXEC"] else []) ++ if f.register then ["REGISTER"] else []

/-- The message that a transaction comes in. -/
def Transaction.envelope (t : Transaction) : Envelope where
  uid := t.id
  type := .transaction
  name := some t.name
  flags := t.flags.words
  event := t.event
  cmds := t.statements.map Statement.document
  code := none
  state := none

/-- The fields of this message, in the order of their keys. -/
def Transaction.document (t : Transaction) : List (String × Json) :=
  [("CMDS", .array (t.statements.map fun s => .object s.document)),
    ("EVENT", (t.event.map Json.string).getD .null),
    ("FLAGS", .array (t.flags.words.map .string)),
    ("NAME", .string t.name),
    ("TYPE", .string "transaction"),
    ("UID", .int t.id.toNat)]

lemma Value.IsScalar.written {v : Value} (h : v.IsScalar) : v.Written v.document := by
  cases v with
  | nil => exact .nil
  | bool b => exact .bool b
  | int n => exact .int n
  | string s => exact .string s
  | _ => cases h

lemma Value.insertMemberBy_of_last {members : List Value} {v : Value}
    (h : ∀ w ∈ members, w.compare v = .lt) :
    insertMemberBy Value.compare v members = some (members ++ [v]) := by
  induction members with
  | nil => rfl
  | cons w ws ih =>
    obtain ⟨hw, hws⟩ := List.forall_mem_cons.1 h
    have hgt : v.compare w = .gt := by
      have hswap : v.compare w = (w.compare v).swap := Std.OrientedCmp.eq_swap
      rw [hswap, hw]
      rfl
    rw [insertMemberBy, hgt, ih hws]
    rfl

lemma Value.membersOf_eq_self {members : List Value}
    (h : members.Pairwise fun v w => v.compare w = .lt) : membersOf members = members := by
  suffices hfold : ∀ vs ws : List Value, (vs ++ ws).Pairwise (fun v w => v.compare w = .lt) →
      ws.foldl (fun members v => (insertMemberBy Value.compare v members).getD members) vs =
        vs ++ ws from hfold [] members h
  intro vs ws h
  induction ws generalizing vs with
  | nil => rw [List.foldl_nil, List.append_nil]
  | cons w ws ih =>
    have hlast : ∀ v ∈ vs, v.compare w = .lt :=
      fun v hv => (List.pairwise_append.1 h).2.2 v hv w List.mem_cons_self
    rw [List.append_cons] at h ⊢
    rw [List.foldl_cons, insertMemberBy_of_last hlast, Option.getD_some, ih _ h]

lemma Argument.IsPlain.written {a : Argument} (h : a.IsPlain) : a.Written a.document := by
  cases h with
  | position p => exact .position p
  | @scalar v h =>
    have hdocument : (Argument.direct v).document = v.document := by
      cases v <;> first | rfl | cases h
    rw [hdocument]
    exact .scalar h.written
  | named name h => exact .named (.refl _) h.written
  | @set members hscalar hsorted =>
    have hset := Argument.Written.set (List.forall₂_map_left_iff.2
      (List.forall₂_same.2 fun v hv => (hscalar v hv).written))
    rwa [Value.setOf, Value.membersOf_eq_self hsorted] at hset

lemma Statement.written {s : Statement} (h : ∀ a ∈ s.arguments, a.IsPlain) :
    s.Written s.document :=
  .list (List.forall₂_map_left_iff.2 (List.forall₂_same.2 fun a ha => (h a ha).written))

lemma Transaction.written {t : Transaction} (hconnection : t.connectionId = none)
    (h : ∀ s ∈ t.statements, ∀ a ∈ s.arguments, a.IsPlain) : t.Written t.envelope where
  id := rfl
  flags := by
    change ∀ word ∈ t.flags.words, _
    rw [Flags.words]
    grind
  exec := by
    change _ ↔ "EXEC" ∈ t.flags.words
    rw [Flags.words]
    grind
  register := by
    change _ ↔ "REGISTER" ∈ t.flags.words
    rw [Flags.words]
    grind
  name := rfl
  named := fun _ => rfl
  event := rfl
  connectionId := hconnection
  statements := List.forall₂_map_left_iff.2
    (List.forall₂_same.2 fun s hs => Statement.written (h s hs))

lemma Transaction.fills (t : Transaction) : t.envelope.Fills t.document where
  distinct := by
    change ["CMDS", "EVENT", "FLAGS", "NAME", "TYPE", "UID"].Nodup
    decide
  known := by
    change ∀ key ∈ ["CMDS", "EVENT", "FLAGS", "NAME", "TYPE", "UID"], key ∈ Envelope.fieldNames
    decide
  uid := rfl
  type := ⟨_, rfl, .inl rfl⟩
  name := ⟨_, rfl, rfl⟩
  flags := .inl rfl
  event := by
    change Envelope.HoldsOptional _ (some ((t.event.map Json.string).getD .null)) t.event
    cases t.event with
    | none => exact .inr rfl
    | some event => exact ⟨_, rfl, rfl⟩
  cmds := by
    refine .inl ?_
    change _ = some (Json.array ((t.statements.map Statement.document).map .object))
    rw [List.map_map]
    rfl
  code := .inl rfl
  state := .inl rfl

namespace Incoming

lemma exists_written_iff {e : Envelope} :
    (∃ t, Transaction.Written e t) ↔
      (∀ word ∈ e.flags, word = "EXEC" ∨ word = "REGISTER") ∧
        ("REGISTER" ∈ e.flags → e.name.isSome) ∧ ∀ cmd ∈ e.cmds, ∃ s, Statement.Written cmd s := by
  rw [← exists_forall₂_iff]
  constructor
  · rintro ⟨t, h⟩
    exact ⟨h.flags, h.named, t.statements, h.statements⟩
  · rintro ⟨hflags, hnamed, statements, hstatements⟩
    exact ⟨⟨e.uid, e.name.getD "", ⟨decide ("EXEC" ∈ e.flags), decide ("REGISTER" ∈ e.flags)⟩, none,
        e.event, statements⟩,
      rfl, hflags, decide_eq_true_iff, decide_eq_true_iff, rfl, hnamed, rfl, rfl, hstatements⟩

lemma decode_transaction_eq_ok_iff {fields : List (String × Json)} {e : Envelope} {i : Incoming}
    (hfills : Envelope.Fills fields e) (htype : e.type = .transaction) :
    decode (.object fields) = .ok i ↔ ∃ t, i = .message (.transaction t) ∧ Transaction.Written e t := by
  have he := (Envelope.ofJson_object_eq_ok_iff hfills.distinct).2 hfills
  have hof : ofEnvelope e = (transaction e).map fun t => .message (.transaction t) := by
    rw [ofEnvelope, htype]
  simp only [decode_eq_ok_iff, he, Except.ok.injEq, exists_eq_left', hof, map_eq_ok_iff,
    transaction_eq_ok_iff, @eq_comm _ i, and_comm]

/-- A document that fills the fields of a message of a transaction is accepted exactly if its flags
are known, it has a name if it is to be kept, and each of its commands is written by the grammar;
and then the transaction is the one written. A transaction that came through no connection and has
only plain arguments is written by its document, and comes back from it. -/
theorem decode_transaction :
    (∀ fields e, Envelope.Fills fields e → e.type = .transaction →
      ((∃ i, decode (.object fields) = .ok i) ↔
        (∀ word ∈ e.flags, word = "EXEC" ∨ word = "REGISTER") ∧
          ("REGISTER" ∈ e.flags → e.name.isSome) ∧ ∀ cmd ∈ e.cmds, ∃ s, Statement.Written cmd s) ∧
      ∀ i, decode (.object fields) = .ok i ↔
        ∃ t, i = .message (.transaction t) ∧ Transaction.Written e t) ∧
    ∀ t : Transaction, t.connectionId = none → (∀ s ∈ t.statements, ∀ a ∈ s.arguments, a.IsPlain) →
      Envelope.Fills t.document t.envelope ∧ Transaction.Written t.envelope t ∧
        decode (.object t.document) = .ok (.message (.transaction t)) := by
  refine ⟨fun fields e hfills htype => ⟨?_, ?_⟩, ?_⟩
  · rw [← exists_written_iff]
    simp only [decode_transaction_eq_ok_iff hfills htype]
    constructor
    · rintro ⟨-, t, -, ht⟩
      exact ⟨t, ht⟩
    · rintro ⟨t, ht⟩
      exact ⟨_, t, rfl, ht⟩
  · intro i
    exact decode_transaction_eq_ok_iff hfills htype
  · intro t hconnection hplain
    have hwritten := Transaction.written hconnection hplain
    exact ⟨t.fills, hwritten, (decode_transaction_eq_ok_iff t.fills rfl).2 ⟨t, rfl, hwritten⟩⟩

/-- A transaction with an argument of each form, and a message without a name that says a flag
twice. -/
theorem decode_transaction_each_form :
    let t : Transaction := ⟨9, "greet", ⟨true, true⟩, none, some "tick",
      [⟨.special .push, [.position (-3), .direct .nil, .direct (.named "k" (.bool true)),
        .direct (.set [.int 1, .string "b"])]⟩, ⟨.special .pop, []⟩]⟩
    let fields : List (String × Json) := [("CMDS", .array [.object [("pop", .null)]]),
      ("FLAGS", .array [.string "EXEC", .string "EXEC"]), ("TYPE", .object [("transaction", .null)]),
      ("UID", .int 5)]
    let e : Envelope :=
      ⟨5, .transaction, none, ["EXEC", "EXEC"], none, [[("pop", .null)]], none, none⟩
    (t.connectionId = none ∧ (∀ s ∈ t.statements, ∀ a ∈ s.arguments, a.IsPlain) ∧
      decode (.object t.document) = .ok (.message (.transaction t))) ∧
    Envelope.Fills fields e ∧ e.type = .transaction ∧ ∃ i, decode (.object fields) = .ok i := by
  intro t fields e
  have hplain : ∀ s ∈ t.statements, ∀ a ∈ s.arguments, a.IsPlain := by
    simp only [t, List.mem_cons, List.not_mem_nil, or_false]
    rintro s (rfl | rfl) a ha
    · simp only [List.mem_cons, List.not_mem_nil, or_false] at ha
      obtain rfl | rfl | rfl | rfl := ha
      · exact .position _
      · exact .scalar trivial
      · exact .named _ trivial
      · refine .set ?_ ?_
        · simp [Value.IsScalar]
        · simp [Value.compare]
          decide
    · cases ha
  have hfills : Envelope.Fills fields e := {
    distinct := by decide
    known := by decide
    uid := rfl
    type := ⟨_, rfl, .inr rfl⟩
    name := .inl rfl
    flags := .inl rfl
    event := .inl rfl
    cmds := .inl rfl
    code := .inl rfl
    state := .inl rfl }
  refine ⟨⟨rfl, hplain, (decode_transaction.2 t rfl hplain).2.2⟩, hfills, rfl, ?_⟩
  refine (decode_transaction.1 fields e hfills rfl).1.2 ⟨by decide, by decide, ?_⟩
  simp only [e, List.mem_cons, List.not_mem_nil, or_false]
  rintro cmd rfl
  exact ⟨_, .bare (.special .pop)⟩

end Incoming

end TransactionEngine
