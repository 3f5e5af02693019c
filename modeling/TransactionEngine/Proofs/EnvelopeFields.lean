import Mathlib.Data.List.Basic
import Mathlib.Data.List.Forall2
import TransactionEngine.Message.Envelope
import TransactionEngine.Proofs.Outcomes

/-!
# The documents that fill a message

A document fills the fields of a message if it is an object with known keys, each once, that holds
documents of the right kinds under them, or a list of such documents in the order of the fields. No
other document is read as a message.
-/

namespace TransactionEngine

/-- The word for a type of messages. -/
def MessageType.word : MessageType → String
  | transaction => "transaction"
  | event => "event"
  | input => "input"

namespace Envelope

/-- A document stands for a word: as a text, or as the only key of an object, which holds null. -/
def Names (word : String) (j : Json) : Prop :=
  j = .string word ∨ j = .object [(word, .null)]

/-- A field that may be absent or null holds something, or is absent or null. -/
def HoldsOptional {α : Type} (holds : Json → α → Prop) (found : Option Json) : Option α → Prop
  | none => found = none ∨ found = some .null
  | some a => ∃ j, found = some j ∧ holds j a

/-- A field that may be absent holds a list, or is absent and stands for the empty one. -/
def HoldsList {α : Type} (item : α → Json) (found : Option Json) (as : List α) : Prop :=
  found = some (.array (as.map item)) ∨ found = none ∧ as = []

/-- The fields of an object are those of a message, each at most once and of the right kind. -/
structure Fills (fields : List (String × Json)) (e : Envelope) : Prop where
  distinct : (fields.map Prod.fst).Nodup
  known : ∀ key ∈ fields.map Prod.fst, key ∈ fieldNames
  uid : fields.lookup "UID" = some (.int e.uid.toNat)
  type : ∃ j, fields.lookup "TYPE" = some j ∧ Names e.type.word j
  name : HoldsOptional (fun j s => j = .string s) (fields.lookup "NAME") e.name
  flags : HoldsList .string (fields.lookup "FLAGS") e.flags
  event : HoldsOptional (fun j s => j = .string s) (fields.lookup "EVENT") e.event
  cmds : HoldsList .object (fields.lookup "CMDS") e.cmds
  code : HoldsOptional (fun j n => j = .int n.toNat) (fields.lookup "CODE") e.code
  state : HoldsOptional (fun j s => Names s.name j) (fields.lookup "STATE") e.state

lemma unsigned_eq_ok_iff {limit n : Nat} {wanted : String} {j : Json} :
    unsigned limit wanted j = .ok n ↔ j = .int n ∧ n < limit := by
  cases j with
  | int m =>
    rw [unsigned]
    split_ifs with h
    · rw [Except.ok.injEq, Json.int.injEq]
      omega
    · refine iff_of_false nofun ?_
      rintro ⟨⟨⟩, hn⟩
      omega
  | _ => simp [unsigned, mismatch]

lemma text_eq_ok_iff {j : Json} {s : String} : text j = .ok s ↔ j = .string s := by
  cases j <;> simp [text, mismatch]

lemma mapping_eq_ok_iff {j : Json} {fields : List (String × Json)} :
    mapping j = .ok fields ↔ j = .object fields := by
  cases j <;> simp [mapping, mismatch]

lemma sequence_eq_ok_iff {α : Type} {item : Json → Except Json.ShapeFault α} {f : α → Json}
    (hitem : ∀ {j a}, item j = .ok a ↔ j = f a) {j : Json} {as : List α} :
    sequence item j = .ok as ↔ j = .array (as.map f) := by
  cases j with
  | array items =>
    simp only [sequence, mapM_eq_ok_iff, hitem, forall₂_eq_map_iff, Json.array.injEq]
  | _ => simp [sequence, mismatch]

lemma optional_eq_ok_iff {α : Type} {item : Json → Except Json.ShapeFault α}
    {holds : Json → α → Prop} (hitem : ∀ {j a}, item j = .ok a ↔ holds j a)
    (hnull : ∀ a, item .null ≠ .ok a) {j : Json} {a : Option α} :
    optional item j = .ok a ↔ HoldsOptional holds (some j) a := by
  by_cases hj : j = .null
  · subst hj
    cases a with
    | none => simp [optional, HoldsOptional]
    | some a =>
      refine iff_of_false nofun ?_
      rintro ⟨j, ⟨⟩, hj⟩
      exact hnull a (hitem.2 hj)
  · have ho : optional item j = (item j).map some := by
      cases j <;> first | rfl | exact absurd rfl hj
    rw [ho, map_eq_ok_iff]
    cases a with
    | none => simp [HoldsOptional, hj]
    | some a => simp [HoldsOptional, hitem]

lemma variant_eq_ok_iff {α : Type} {words : List (String × α)} {word : String} {a : α} :
    variant words word = .ok a ↔ words.lookup word = some a := by
  rw [variant]
  cases words.lookup word <;> simp

lemma choice_eq_ok_iff {α : Type} {words : List (String × α)} {j : Json} {a : α} :
    choice words j = .ok a ↔ ∃ word, words.lookup word = some a ∧ Names word j := by
  unfold choice
  split
  · simp [variant_eq_ok_iff, Names]
  · next word content =>
    simp only [bind_eq_ok_iff, variant_eq_ok_iff, Names]
    cases content <;> simp [mismatch, pure, Except.pure]
  · next hone =>
    refine iff_of_false nofun ?_
    rintro ⟨word, -, hn | hn⟩
    · cases hn
    · exact hone word .null (Json.object.inj hn)
  · next hstring hone hobject =>
    refine iff_of_false nofun ?_
    rintro ⟨word, -, rfl | rfl⟩
    · exact hstring _ rfl
    · exact hobject _ rfl

lemma lookup_types_eq_some_iff {word : String} {t : MessageType} :
    types.lookup word = some t ↔ word = t.word := by
  simp only [types, List.lookup_cons]
  cases t <;> simp only [MessageType.word] <;> grind

lemma lookup_states_eq_some_iff {word : String} {s : KeyState} :
    states.lookup word = some s ↔ word = s.name := by
  simp only [states, List.map_cons, List.map_nil, List.lookup_cons]
  cases s <;> simp only [KeyState.name] <;> grind

lemma types_eq_ok_iff {j : Json} {t : MessageType} : choice types j = .ok t ↔ Names t.word j := by
  simp only [choice_eq_ok_iff, lookup_types_eq_some_iff, exists_eq_left]

lemma states_eq_ok_iff {j : Json} {s : KeyState} : choice states j = .ok s ↔ Names s.name j := by
  simp only [choice_eq_ok_iff, lookup_states_eq_some_iff, exists_eq_left]

/-- A field of a draft takes what was found for it, and if nothing was found stays as it was. -/
def Takes {α : Type} (holds : Json → α → Prop) (old new : α) : Option Json → Prop
  | none => new = old
  | some j => holds j new

/-- Something is held, and it is not absent. -/
def Present {α : Type} (holds : Json → α → Prop) (j : Json) (a : Option α) : Prop :=
  ∃ x, a = some x ∧ holds j x

/-- What the fields of an object make of a draft. -/
@[mk_iff]
structure Draft.Reads (fields : List (String × Json)) (d d' : Draft) : Prop where
  known : ∀ key ∈ fields.map Prod.fst, key ∈ fieldNames
  uid : Takes (Present fun j u => j = .int u.toNat) d.uid d'.uid (fields.lookup "UID")
  type : Takes (Present fun j t => Names t.word j) d.type d'.type (fields.lookup "TYPE")
  name : Takes (fun j => HoldsOptional (fun j s => j = .string s) (some j)) d.name d'.name
    (fields.lookup "NAME")
  flags : Takes (Present fun j l => j = .array (l.map .string)) d.flags d'.flags
    (fields.lookup "FLAGS")
  event : Takes (fun j => HoldsOptional (fun j s => j = .string s) (some j)) d.event d'.event
    (fields.lookup "EVENT")
  cmds : Takes (Present fun j l => j = .array (l.map .object)) d.cmds d'.cmds
    (fields.lookup "CMDS")
  code : Takes (fun j => HoldsOptional (fun j n => j = .int n.toNat) (some j)) d.code d'.code
    (fields.lookup "CODE")
  state : Takes (fun j => HoldsOptional (fun j s => Names s.name j) (some j)) d.state d'.state
    (fields.lookup "STATE")

lemma exists_uid_iff {j : Json} {p : UInt64 → Prop} :
    (∃ n, unsigned UInt64.size "u64" j = .ok n ∧ p (UInt64.ofNat n)) ↔
      ∃ u : UInt64, j = .int u.toNat ∧ p u := by
  simp only [unsigned_eq_ok_iff]
  constructor
  · rintro ⟨n, ⟨rfl, hn⟩, hp⟩
    exact ⟨UInt64.ofNat n, by rw [UInt64.toNat_ofNat_of_lt' hn], hp⟩
  · rintro ⟨u, rfl, hp⟩
    exact ⟨u.toNat, ⟨rfl, u.toNat_lt_size⟩, by rwa [UInt64.ofNat_toNat]⟩

lemma exists_code_iff {j : Json} {p : Option UInt16 → Prop} :
    (∃ n, optional (unsigned UInt16.size "u16") j = .ok n ∧ p (n.map UInt16.ofNat)) ↔
      ∃ n, HoldsOptional (fun j (n : UInt16) => j = .int n.toNat) (some j) n ∧ p n := by
  have hread {n : Option Nat} : optional (unsigned UInt16.size "u16") j = .ok n ↔
      HoldsOptional (fun j n => j = .int (n : Nat) ∧ n < UInt16.size) (some j) n :=
    optional_eq_ok_iff unsigned_eq_ok_iff fun _ => by simp [unsigned, mismatch]
  simp only [hread]
  constructor
  · rintro ⟨n, hn, hp⟩
    refine ⟨n.map UInt16.ofNat, ?_, hp⟩
    cases n with
    | none => exact hn
    | some n =>
      obtain ⟨j, hj, rfl, hn⟩ := hn
      refine ⟨_, hj, ?_⟩
      dsimp only
      rw [UInt16.toNat_ofNat_of_lt' hn]
  · rintro ⟨n, hn, hp⟩
    refine ⟨n.map UInt16.toNat, ?_, ?_⟩
    · cases n with
      | none => exact hn
      | some n =>
        obtain ⟨j, hj, rfl⟩ := hn
        exact ⟨_, hj, rfl, n.toNat_lt_size⟩
    · rw [Option.map_map]
      convert hp
      cases n <;> simp

section OneField

attribute [local simp] Draft.reads_iff Takes Present fieldNames List.lookup_cons

lemma setField_eq_ok_iff {d d' : Draft} {name : String} {j : Json} :
    setField d name j = .ok d' ↔ d.Reads [(name, j)] d' := by
  have htext {s : Option String} : optional text j = .ok s ↔
      HoldsOptional (fun j s => j = .string s) (some j) s :=
    optional_eq_ok_iff text_eq_ok_iff fun _ => by simp [text, mismatch]
  have hstate {s : Option KeyState} : optional (choice states) j = .ok s ↔
      HoldsOptional (fun j s => Names s.name j) (some j) s :=
    optional_eq_ok_iff states_eq_ok_iff fun _ => by simp [choice, mismatch]
  have hwords {l : List String} : sequence text j = .ok l ↔ j = .array (l.map .string) :=
    sequence_eq_ok_iff text_eq_ok_iff
  have hcmds {l : List (List (String × Json))} :
      sequence mapping j = .ok l ↔ j = .array (l.map .object) :=
    sequence_eq_ok_iff mapping_eq_ok_iff
  obtain ⟨u, t, n, f, e, c, k, s⟩ := d'
  unfold setField
  -- A known field changes one part of the draft; the numbers are read as natural numbers first.
  split <;> (try rw [map_eq_ok_iff])
  · refine (exists_uid_iff (p := fun x => { d with uid := some x } = ⟨u, t, n, f, e, c, k, s⟩)).trans ?_
    simp
    grind
  · simp [types_eq_ok_iff]
    grind
  · simp [htext]
    grind
  · simp [hwords]
    grind
  · simp [htext]
    grind
  · simp [hcmds]
    grind
  · refine (exists_code_iff (p := fun x => { d with code := x } = ⟨u, t, n, f, e, c, k, s⟩)).trans ?_
    simp
    grind
  · simp [hstate]
    grind
  · refine iff_of_false nofun fun h => ?_
    have hknown := h.known name (List.mem_singleton_self name)
    simp only [fieldNames, List.mem_cons, List.not_mem_nil, or_false] at hknown
    tauto

end OneField

lemma takes_cons_iff {α : Type} {holds : Json → α → Prop} {old new : α} {key name : String} {j : Json}
    {fields : List (String × Json)} (h : name ∉ fields.map Prod.fst) :
    Takes holds old new (((name, j) :: fields).lookup key) ↔
      ∃ mid, Takes holds old mid ([(name, j)].lookup key) ∧
        Takes holds mid new (fields.lookup key) := by
  by_cases hkey : key = name
  · subst hkey
    have hnone : fields.lookup key = none := by
      rw [List.lookup_eq_none_iff]
      intro f hf
      exact bne_iff_ne.2 fun he => h (he ▸ List.mem_map_of_mem hf)
    simp [Takes, hnone]
  · have hne : (key == name) = false := beq_false_of_ne hkey
    simp [List.lookup_cons, hne, Takes]

lemma reads_cons_iff {d d' : Draft} {name : String} {j : Json} {fields : List (String × Json)}
    (h : name ∉ fields.map Prod.fst) :
    d.Reads ((name, j) :: fields) d' ↔ ∃ m, d.Reads [(name, j)] m ∧ m.Reads fields d' := by
  constructor
  · intro hr
    rw [Draft.reads_iff, List.map_cons, List.forall_mem_cons] at hr
    simp only [takes_cons_iff h] at hr
    obtain ⟨⟨hname, hknown⟩, ⟨u, hu, hu'⟩, ⟨t, ht, ht'⟩, ⟨n, hn, hn'⟩, ⟨f, hf, hf'⟩, ⟨e, he, he'⟩,
      ⟨c, hc, hc'⟩, ⟨k, hk, hk'⟩, ⟨s, hs, hs'⟩⟩ := hr
    exact ⟨⟨u, t, n, f, e, c, k, s⟩, ⟨by simpa using hname, hu, ht, hn, hf, he, hc, hk, hs⟩,
      ⟨hknown, hu', ht', hn', hf', he', hc', hk', hs'⟩⟩
  · rintro ⟨m, hm, hr⟩
    exact ⟨List.forall_mem_cons.2 ⟨hm.known name (List.mem_singleton_self name), hr.known⟩,
      (takes_cons_iff h).2 ⟨_, hm.uid, hr.uid⟩, (takes_cons_iff h).2 ⟨_, hm.type, hr.type⟩,
      (takes_cons_iff h).2 ⟨_, hm.name, hr.name⟩, (takes_cons_iff h).2 ⟨_, hm.flags, hr.flags⟩,
      (takes_cons_iff h).2 ⟨_, hm.event, hr.event⟩, (takes_cons_iff h).2 ⟨_, hm.cmds, hr.cmds⟩,
      (takes_cons_iff h).2 ⟨_, hm.code, hr.code⟩, (takes_cons_iff h).2 ⟨_, hm.state, hr.state⟩⟩

lemma setFields_eq_ok_iff {d d' : Draft} {fields : List (String × Json)}
    (h : (fields.map Prod.fst).Nodup) : setFields d fields = .ok d' ↔ d.Reads fields d' := by
  induction fields generalizing d with
  | nil =>
    rw [setFields, Except.ok.injEq]
    constructor
    · rintro rfl
      exact ⟨nofun, rfl, rfl, rfl, rfl, rfl, rfl, rfl, rfl⟩
    · intro hr
      obtain ⟨u, t, n, f, e, c, k, s⟩ := d'
      obtain ⟨-, ⟨⟩, ⟨⟩, ⟨⟩, ⟨⟩, ⟨⟩, ⟨⟩, ⟨⟩, ⟨⟩⟩ := hr
      rfl
  | cons field fields ih =>
    obtain ⟨name, j⟩ := field
    obtain ⟨hname, hfields⟩ := List.nodup_cons.1 h
    rw [setFields, bind_eq_ok_iff, reads_cons_iff hname]
    simp only [setField_eq_ok_iff, ih hfields]

/-! ### All fields -/

lemma finish_eq_ok_iff {d : Draft} {e : Envelope} :
    d.finish = .ok e ↔ d.uid = some e.uid ∧ d.type = some e.type ∧ d.name = e.name ∧
      d.flags.getD [] = e.flags ∧ d.event = e.event ∧ d.cmds.getD [] = e.cmds ∧ d.code = e.code ∧
      d.state = e.state := by
  obtain ⟨u, t, n, f, ev, c, k, s⟩ := d
  cases e
  cases u <;> cases t <;> simp [Draft.finish]

lemma takes_present_iff {α : Type} {holds : Json → α → Prop} {found : Option Json} {a : α} :
    Takes (Present holds) none (some a) found ↔ ∃ j, found = some j ∧ holds j a := by
  cases found <;> simp [Takes, Present]

lemma takes_optional_iff {α : Type} {holds : Json → α → Prop} {found : Option Json}
    {a : Option α} :
    Takes (fun j => HoldsOptional holds (some j)) none a found ↔ HoldsOptional holds found a := by
  cases found <;> cases a <;> simp [Takes, HoldsOptional]

lemma takes_list_iff {α : Type} {item : α → Json} {found : Option Json} {as : List α} :
    (∃ l, Takes (Present fun j l => j = .array (l.map item)) none l found ∧ l.getD [] = as) ↔
      HoldsList item found as := by
  cases found <;> simp [Takes, Present, HoldsList, eq_comm]

/-- An object is read as a message exactly if its fields are those of the message. -/
theorem ofJson_object_eq_ok_iff {fields : List (String × Json)} {e : Envelope}
    (h : (fields.map Prod.fst).Nodup) : ofJson (.object fields) = .ok e ↔ Fills fields e := by
  rw [ofJson, bind_eq_ok_iff]
  simp only [setFields_eq_ok_iff h, finish_eq_ok_iff]
  constructor
  · rintro ⟨⟨u, t, n, f, ev, c, k, s⟩, hr, rfl, rfl, rfl, hf, rfl, hc, rfl, rfl⟩
    have huid := takes_present_iff.1 hr.uid
    simp only [exists_eq_right] at huid
    exact ⟨h, hr.known, huid, takes_present_iff.1 hr.type, takes_optional_iff.1 hr.name,
      takes_list_iff.1 ⟨f, hr.flags, hf⟩, takes_optional_iff.1 hr.event,
      takes_list_iff.1 ⟨c, hr.cmds, hc⟩, takes_optional_iff.1 hr.code,
      takes_optional_iff.1 hr.state⟩
  · intro hf
    obtain ⟨f, hflags, hf'⟩ := takes_list_iff.2 hf.flags
    obtain ⟨c, hcmds, hc'⟩ := takes_list_iff.2 hf.cmds
    exact ⟨⟨some e.uid, some e.type, e.name, f, e.event, c, e.code, e.state⟩,
      ⟨hf.known, takes_present_iff.2 ⟨_, hf.uid, rfl⟩, takes_present_iff.2 hf.type,
        takes_optional_iff.2 hf.name, hflags, takes_optional_iff.2 hf.event, hcmds,
        takes_optional_iff.2 hf.code, takes_optional_iff.2 hf.state⟩,
      rfl, rfl, rfl, hf', rfl, hc', rfl, rfl⟩

lemma setPlaces_eq_setFields {d : Draft} {place : Nat} {names : List String} {items : List Json}
    (h : items.length = names.length) :
    setPlaces d place names items = setFields d (names.zip items) := by
  induction names generalizing d place items with
  | nil => cases items <;> rfl
  | cons name names ih =>
    cases items with
    | nil => cases h
    | cons j items =>
      rw [setPlaces, List.zip_cons_cons, setFields]
      exact bind_congr fun d => ih (Nat.succ.inj h)

/-- A field that must be there and is the last one makes a list hold an item for each. -/
lemma length_le_of_setPlaces {d d' : Draft} {place : Nat} {names : List String} {items : List Json}
    (hlast : ∀ name ∈ names.getLast?, mayBeAbsent name = false)
    (h : setPlaces d place names items = .ok d') : names.length ≤ items.length := by
  induction names generalizing d place items with
  | nil => exact Nat.zero_le _
  | cons name names ih =>
    have htail : ∀ last ∈ names.getLast?, mayBeAbsent last = false := by
      intro last hmem
      refine hlast last ?_
      rw [List.getLast?_cons, Option.mem_def.1 hmem]
      rfl
    cases items with
    | nil =>
      rw [setPlaces] at h
      split_ifs at h with habsent
      cases names with
      | nil => exact absurd habsent (by simp [hlast name rfl])
      | cons next names => exact absurd (ih htail h) (by simp)
    | cons j items =>
      rw [setPlaces, bind_eq_ok_iff] at h
      obtain ⟨m, -, hm⟩ := h
      exact Nat.succ_le_succ (ih htail hm)

/-- A list is read as a message exactly if its items are as many as the fields, and an object that
holds them under the names of the fields is read as this message. -/
theorem ofJson_array_eq_ok_iff {items : List Json} {e : Envelope} :
    ofJson (.array items) = .ok e ↔
      items.length = fieldNames.length ∧ ofJson (.object (fieldNames.zip items)) = .ok e := by
  have hobject (hlength : items.length = fieldNames.length) :
      ofJson (.array items) = ofJson (.object (fieldNames.zip items)) := by
    rw [ofJson, ofJson, setPlaces_eq_setFields hlength, hlength]
    rfl
  constructor
  · intro h
    have hlength : items.length = fieldNames.length := by
      rw [ofJson, bind_eq_ok_iff] at h
      obtain ⟨d, hd, hfinish⟩ := h
      have hle := length_le_of_setPlaces (by decide) hd
      split_ifs at hfinish with hlt
      omega
    exact ⟨hlength, hobject hlength ▸ h⟩
  · rintro ⟨hlength, h⟩
    rwa [hobject hlength]

lemma ofJson_eq_ok_cases {j : Json} {e : Envelope} (h : ofJson j = .ok e) :
    (∃ fields, j = .object fields) ∨ ∃ items, j = .array items := by
  cases j with
  | object fields => exact .inl ⟨fields, rfl⟩
  | array items => exact .inr ⟨items, rfl⟩
  | _ => cases h

end Envelope

end TransactionEngine
