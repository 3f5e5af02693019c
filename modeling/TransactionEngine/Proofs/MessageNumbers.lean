import TransactionEngine.Message.Decode
import TransactionEngine.Proofs.EnvelopeFields
import TransactionEngine.Proofs.ReadDocuments

/-!
# The numbers of messages

A message that is understood has the number that stands in its document, and one that is refused is
answered under this number if the document shows it under its key. A list of the values of all
fields is understood as well, though it has no key to show a number under.
-/

namespace TransactionEngine

namespace Json

/-- The document is an object with this number as its number. -/
def Shows (j : Json) (u : UInt64) : Prop :=
  ∃ fields, j = .object fields ∧ fields.lookup "UID" = some (.int u.toNat)

lemma asUInt64?_eq_some_iff {j : Json} {u : UInt64} : j.asUInt64? = some u ↔ j = .int u.toNat := by
  cases j with
  | int n =>
    rw [asUInt64?, Json.int.injEq]
    split_ifs with h
    · simp only [Bool.and_eq_true, decide_eq_true_eq] at h
      rw [Option.some.injEq]
      constructor
      · rintro rfl
        rw [UInt64.toNat_ofNat_of_lt' (by omega)]
        omega
      · rintro rfl
        exact UInt64.ofNat_toNat
    · refine iff_of_false nofun ?_
      rintro rfl
      have hlt := u.toNat_lt_size
      simp only [Bool.and_eq_true, decide_eq_true_eq] at h
      omega
  | _ => simp [asUInt64?]

end Json

namespace Incoming

variable {j : Json} {i : Incoming}

lemma shownId_eq_some_iff {u : UInt64} : shownId j = some u ↔ j.Shows u := by
  simp only [shownId, Option.bind_eq_some_iff, Json.asUInt64?_eq_some_iff, exists_eq_right]
  cases j <;> simp [Json.field?, Json.Shows]

lemma decode_eq_ok_iff :
    decode j = .ok i ↔ ∃ e, Envelope.ofJson j = .ok e ∧ ofEnvelope e = .ok i := by
  rw [decode]
  cases Envelope.ofJson j with
  | error fault => simp
  | ok e =>
    dsimp only
    cases h : ofEnvelope e <;> simp [h]

lemma id_of_decode_eq_error {err : DecodeError} (h : decode j = .error err) :
    err.id = shownId j := by
  rw [decode] at h
  dsimp only at h
  split at h
  · cases h
    rfl
  · split at h
    · cases h
      rfl
    · cases h

lemma id_transaction {e : Envelope} {t : Transaction} (h : transaction e = .ok t) : t.id = e.uid := by
  simp only [transaction, bind_eq_ok_iff] at h
  obtain ⟨f, -, name, -, statements, -, ⟨⟩⟩ := h
  rfl

lemma id_ofEnvelope {e : Envelope} (h : ofEnvelope e = .ok i) : i.id = e.uid := by
  unfold ofEnvelope at h
  split at h
  · obtain ⟨t, ht, rfl⟩ := map_eq_ok_iff.1 h
    exact id_transaction ht
  · split at h
    · cases h
      rfl
    · cases h
  · split at h
    · cases h
    · cases h
    · cases h
      rfl

lemma decode_array_eq_ok_iff {items : List Json} :
    decode (.array items) = .ok i ↔
      items.length = 8 ∧ decode (.object (Envelope.fieldNames.zip items)) = .ok i := by
  simp only [decode_eq_ok_iff, Envelope.ofJson_array_eq_ok_iff, and_assoc, exists_and_left]
  rfl

lemma shows_of_decode_object {fields : List (String × Json)} (hkeys : (fields.map Prod.fst).Nodup)
    (h : decode (.object fields) = .ok i) : fields.lookup "UID" = some (.int i.id.toNat) := by
  obtain ⟨e, he, hi⟩ := decode_eq_ok_iff.1 h
  rw [id_ofEnvelope hi]
  exact ((Envelope.ofJson_object_eq_ok_iff hkeys).1 he).uid

lemma head_of_decode_array {items : List Json} (h : decode (.array items) = .ok i) :
    items.head? = some (.int i.id.toNat) := by
  obtain ⟨hlength, hobject⟩ := decode_array_eq_ok_iff.1 h
  have hkeys : (Envelope.fieldNames.zip items).map Prod.fst = Envelope.fieldNames :=
    List.map_fst_zip (Nat.le_of_eq hlength.symm)
  have huid := shows_of_decode_object (by rw [hkeys]; decide) hobject
  cases items with
  | nil => cases hlength
  | cons j items => exact huid

lemma not_shows_array {items : List Json} {u : UInt64} : ¬(Json.array items).Shows u := by
  rintro ⟨fields, ⟨⟩, -⟩

/-- All that is understood shows its number, unless the document is a list that is understood. -/
lemma shows_iff_of_keysOnce (hj : j.KeysOnce) :
    (∀ i, decode j = .ok i → j.Shows i.id) ↔
      ∀ items, j = .array items → items.length = 8 →
        ∀ i, decode (.object (Envelope.fieldNames.zip items)) ≠ .ok i := by
  constructor
  · rintro h items rfl hlength i hi
    exact not_shows_array (h i (decode_array_eq_ok_iff.2 ⟨hlength, hi⟩))
  · intro h i hi
    obtain ⟨e, he, -⟩ := decode_eq_ok_iff.1 hi
    rcases Envelope.ofJson_eq_ok_cases he with ⟨fields, rfl⟩ | ⟨items, rfl⟩
    · exact ⟨fields, rfl, shows_of_decode_object hj hi⟩
    · obtain ⟨hlength, hobject⟩ := decode_array_eq_ok_iff.1 hi
      exact absurd hobject (h items rfl hlength i)

/-- A document that was read holds each key once. What is understood of such a document shows its
number, exactly if the document is no list of values for all fields of which an object with these
values would be understood; the number of such a list is its first item. What is refused is answered
under the number that it shows, and under none if it shows none, as all documents that are no
object. -/
theorem decode_number (j : Json) :
    (∀ bs, .ok j ∈ Json.documents bs → j.KeysOnce) ∧
      (j.KeysOnce →
        ((∀ i, decode j = .ok i → j.Shows i.id) ↔
          ∀ items, j = .array items → items.length = 8 →
            ∀ i, decode (.object (Envelope.fieldNames.zip items)) ≠ .ok i) ∧
        (∀ items i, j = .array items → decode j = .ok i →
          items.head? = some (.int i.id.toNat)) ∧
        ∀ err, decode j = .error err →
          err.reply.id = err.id ∧ ∀ u, err.id = some u ↔ j.Shows u) := by
  refine ⟨fun _ => Json.keysOnce_of_mem_documents, fun hj => ⟨shows_iff_of_keysOnce hj, ?_, ?_⟩⟩
  · rintro items i rfl h
    exact head_of_decode_array h
  · intro err h
    refine ⟨rfl, fun u => ?_⟩
    rw [id_of_decode_eq_error h, shownId_eq_some_iff]

/-- An event shows its number, a message of a type that there is not is answered under the largest
one, and the number of a list stands first. -/
theorem decode_number_largest :
    let event : Json :=
      .object [("NAME", .string "e"), ("TYPE", .string "event"), ("UID", .int 3)]
    let unknown : Json :=
      .object [("TYPE", .string "teleport"), ("UID", .int 18446744073709551615)]
    let list : Json := .array [.int 7, .string "event", .string "e", .array [], .null, .array [],
      .null, .null]
    (event.KeysOnce ∧ decode event = .ok (.message (.event 3 "e")) ∧ event.Shows 3) ∧
      (unknown.KeysOnce ∧ ∃ err, decode unknown = .error err ∧
        err.reply.id = some 18446744073709551615) ∧
      list.KeysOnce ∧ ∃ i items, list = .array items ∧ decode list = .ok i ∧
        items.head? = some (.int i.id.toNat) := by
  intro event unknown list
  have hevent : event.KeysOnce := by
    change ["NAME", "TYPE", "UID"].Nodup
    decide
  have hunknown : unknown.KeysOnce := by
    change ["TYPE", "UID"].Nodup
    decide
  have hshows : unknown.Shows 18446744073709551615 := ⟨_, rfl, rfl⟩
  refine ⟨⟨hevent, rfl, ?_⟩, ⟨hunknown, _, rfl, ?_⟩, trivial, _, _, rfl, rfl, ?_⟩
  · exact ((decode_number event).2 hevent).1.2 nofun _ rfl
  · obtain ⟨hreply, hid⟩ := ((decode_number unknown).2 hunknown).2.2 _ rfl
    rw [hreply]
    exact (hid _).2 hshows
  · exact ((decode_number list).2 trivial).2.1 _ _ rfl rfl

/-- A list is understood as a message, and shows no number. -/
theorem list_understood_without_shown_number :
    let l : Json := .array [.int 1, .string "event", .string "e", .array [], .null, .array [], .null,
      .null]
    decode l = .ok (.message (.event 1 "e")) ∧ ∀ u, ¬l.Shows u :=
  ⟨rfl, fun _ => not_shows_array⟩

end Incoming

end TransactionEngine
