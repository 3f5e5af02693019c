import TransactionEngine.Proofs.ReplyEncodings
import TransactionEngine.Session

/-!
# What is written on a connection

A connection that is answered gets one line for each document, in the order of the documents. A
document that is no message is refused with its own error, and all others are answered by whoever
is asked, who sees no others. The first item that is no document ends the connection: broken text
adds a last line, the end of the stream adds none, and what comes after is not looked at. What is
written falls apart at the newlines into the compact forms of the replies.
-/

namespace TransactionEngine

namespace Reply

lemma compact_badText (words : String) :
    (Reply.error none (.badText words)).toJson.compact =
      "\x7b\"UID\":null,\"ERROR\":\x7b\"code\":71,\"description\":\"protocol error\",\"cause\":" ++
        (Json.string words).compact ++ "\x7d\x7d" := by
  have hjson : (Reply.error none (.badText words)).toJson =
      .object [("UID", .null), ("ERROR", .object [("code", .int 71),
        ("description", .string "protocol error"), ("cause", .string words)])] := rfl
  have hwords : ∀ s ∈ ["UID", "ERROR", "code", "description", "protocol error", "cause"],
      (Json.string s).compact = "\"" ++ s ++ "\"" := by decide
  simp only [List.forall_mem_cons] at hwords
  obtain ⟨huid, herror, hcode, hdescription, hprotocol, hcause, -⟩ := hwords
  have hnull : Json.null.compact = "null" := rfl
  have hnumber : (Json.int 71).compact = "71" := rfl
  have hend : "\x7d" ++ "\x7d" = "\x7d\x7d" := rfl
  simp only [hjson, Json.compact_object, List.map_cons, List.map_nil, String.intercalate_cons_cons,
    String.intercalate_singleton, huid, herror, hcode, hdescription, hprotocol, hcause, hnull,
    hnumber, ← String.append_assoc, String.reduceAppend]
  rw [String.append_assoc, hend]

end Reply

/-- The answers to messages that are passed on one after the other, and what they leave behind;
there are none if one of the messages is not answered. -/
def answerAll {σ α : Type} (answer : σ → α → Option (Reply × σ)) :
    σ → List α → Option (List Reply × σ)
  | s, [] => some ([], s)
  | s, a :: as =>
    (answer s a).bind fun (reply, s) =>
      (answerAll answer s as).map fun (replies, s) => (reply :: replies, s)

namespace Session

/-- The documents that a connection yields before anything else. -/
def documents : List Item → List Json
  | .document j :: items => j :: documents items
  | _ => []

/-- The first item that is no document. -/
def interruption : List Item → Option Item
  | [] => none
  | .document _ :: items => interruption items
  | item :: _ => some item

/-- The messages among documents. -/
def messages (documents : List Json) : List Incoming :=
  documents.filterMap fun j => (Incoming.decode j).toOption

variable {σ : Type}

/-- The answer to a message, if there is one, and what it leaves behind. -/
def answered (ask : σ → Incoming → Option Reply × σ) (s : σ) (incoming : Incoming) :
    Option (Reply × σ) :=
  (ask s incoming).1.map fun reply => (reply, (ask s incoming).2)

/-- The reply to a document that comes after others: what is no message is refused, and any other
document is answered after the messages among those before it were. -/
def replyAfter (ask : σ → Incoming → Option Reply × σ) (s : σ) (before : List Json) (j : Json) :
    Option Reply :=
  match Incoming.decode j with
  | .error e => some e.reply
  | .ok incoming =>
    (answerAll (answered ask) s (messages before)).bind fun (_, u) => (ask u incoming).1

/-- What is written about an item that is no document. -/
def lastWords : Option Item → List Reply
  | some (.malformed words) => [.error none (.badText words)]
  | _ => []

variable {ask : σ → Incoming → Option Reply × σ} {s u : σ} {j : Json}

lemma messages_refused {e : DecodeError} (hj : Incoming.decode j = .error e) (before : List Json) :
    messages (j :: before) = messages before := by
  rw [messages, List.filterMap_cons_none (by rw [hj]; rfl)]
  rfl

lemma messages_passed {incoming : Incoming} (hj : Incoming.decode j = .ok incoming)
    (before : List Json) : messages (j :: before) = incoming :: messages before := by
  rw [messages, List.filterMap_cons_some (by rw [hj]; rfl)]
  rfl

lemma answered_eq_some {incoming : Incoming} {reply : Reply}
    (h : answered ask s incoming = some (reply, u)) : ask s incoming = (some reply, u) := by
  obtain ⟨r, hr, heq⟩ := Option.map_eq_some_iff.1 h
  obtain ⟨rfl, rfl⟩ := Prod.mk.inj heq
  exact Prod.ext hr rfl

lemma replyAfter_refused {e : DecodeError} (hj : Incoming.decode j = .error e)
    (before : List Json) (i : Json) : replyAfter ask s (j :: before) i = replyAfter ask s before i := by
  unfold replyAfter
  rw [messages_refused hj]

lemma replyAfter_passed {incoming : Incoming} {reply : Reply}
    (hj : Incoming.decode j = .ok incoming) (ha : answered ask s incoming = some (reply, u))
    (before : List Json) (i : Json) : replyAfter ask s (j :: before) i = replyAfter ask u before i := by
  unfold replyAfter
  rw [messages_passed hj, answerAll, ha]
  cases Incoming.decode i with
  | error e => rfl
  | ok next => cases h : answerAll (answered ask) u (messages before) <;> simp [h]

/-- The replies to documents, one each and in their order. -/
def RepliedInOrder (ask : σ → Incoming → Option Reply × σ) (s : σ) (documents : List Json)
    (replies : List Reply) : Prop :=
  replies.length = documents.length ∧
    ∀ i j, documents[i]? = some j → replies[i]? = replyAfter ask s (documents.take i) j

lemma repliedInOrder_cons {documents : List Json} {reply : Reply} {replies : List Reply}
    (hfirst : replyAfter ask s [] j = some reply)
    (hrest : ∀ before i, replyAfter ask s (j :: before) i = replyAfter ask u before i)
    (h : RepliedInOrder ask u documents replies) :
    RepliedInOrder ask s (j :: documents) (reply :: replies) := by
  obtain ⟨hlength, hreplies⟩ := h
  refine ⟨by simp [hlength], ?_⟩
  intro i k hk
  cases i with
  | zero =>
    obtain rfl : j = k := by simpa using hk
    rw [List.take_zero, hfirst]
    rfl
  | succ i =>
    rw [List.take_succ_cons, hrest]
    exact hreplies i k (by simpa using hk)

lemma serve_refused {e : DecodeError} (hj : Incoming.decode j = .error e) (items : List Item) :
    serve ask s (.document j :: items) =
      (e.reply :: (serve ask s items).1, (serve ask s items).2) := by
  simp only [serve, Item.verdict, hj]

lemma serve_passed {incoming : Incoming} {reply : Reply} (hj : Incoming.decode j = .ok incoming)
    (ha : ask s incoming = (some reply, u)) (items : List Item) :
    serve ask s (.document j :: items) = (reply :: (serve ask u items).1, (serve ask u items).2) := by
  simp only [serve, Item.verdict, hj, ha]

/-- An item that is no document ends the connection, and what comes after it does not count. -/
lemma serve_interrupted {item : Item} (hi : ∀ j, item ≠ .document j) (items : List Item) :
    serve ask s (item :: items) = (lastWords (some item), s) := by
  cases item with
  | document j => exact absurd rfl (hi j)
  | malformed words => rfl
  | truncated => rfl
  | unreadable => rfl

lemma exists_serve_eq {answers : List Reply} {items : List Item}
    (h : answerAll (answered ask) s (messages (documents items)) = some (answers, u)) :
    ∃ replies, serve ask s items = (replies ++ lastWords (interruption items), u) ∧
      RepliedInOrder ask s (documents items) replies := by
  have hend : RepliedInOrder ask s [] [] := ⟨rfl, by simp⟩
  induction items generalizing s answers with
  | nil =>
    cases h
    exact ⟨[], rfl, hend⟩
  | cons item items ih =>
    cases item with
    | document j =>
      change answerAll _ s (messages (j :: documents items)) = _ at h
      cases hj : Incoming.decode j with
      | error e =>
        rw [messages_refused hj] at h
        obtain ⟨replies, hserve, hreplies⟩ := ih h ⟨rfl, by simp⟩
        refine ⟨e.reply :: replies, ?_, ?_⟩
        · rw [serve_refused hj, hserve]
          rfl
        · refine repliedInOrder_cons ?_ (replyAfter_refused hj) hreplies
          simp only [replyAfter, hj]
      | ok incoming =>
        rw [messages_passed hj] at h
        obtain ⟨⟨reply, v⟩, ha, h⟩ := Option.bind_eq_some_iff.1 h
        obtain ⟨⟨rest, w⟩, hrest, heq⟩ := Option.map_eq_some_iff.1 h
        cases heq
        obtain ⟨replies, hserve, hreplies⟩ := ih hrest ⟨rfl, by simp⟩
        refine ⟨reply :: replies, ?_, ?_⟩
        · rw [serve_passed hj (answered_eq_some ha), hserve]
          rfl
        · refine repliedInOrder_cons ?_ (replyAfter_passed hj ha) hreplies
          simp only [replyAfter, hj]
          exact congrArg Prod.fst (answered_eq_some ha)
    | malformed words =>
      cases h
      exact ⟨[], serve_interrupted (by simp) items, hend⟩
    | truncated =>
      cases h
      exact ⟨[], serve_interrupted (by simp) items, hend⟩
    | unreadable =>
      cases h
      exact ⟨[], serve_interrupted (by simp) items, hend⟩

/-- A connection whose messages are answered gets one line for each document, in order, and one
more only when its text breaks off in something that is no JSON. Whoever answers is asked for the
messages among the documents, and for nothing else. The lines are the compact forms of the replies,
and the one for broken text has no number. -/
theorem serve_writes_a_line_a_document {answers : List Reply} {items : List Item}
    (h : answerAll (answered ask) s (messages (documents items)) = some (answers, u)) :
    (∃ replies, serve ask s items = (replies ++ lastWords (interruption items), u) ∧
      RepliedInOrder ask s (documents items) replies) ∧
      ((serve ask s items).1.flatMap Reply.encode).splitOn 10 =
        (serve ask s items).1.map (fun reply => Text.bytes reply.toJson.compact) ++ [[]] ∧
      ∀ words, (Reply.error none (.badText words)).toJson.compact =
        "\x7b\"UID\":null,\"ERROR\":\x7b\"code\":71,\"description\":\"protocol error\",\"cause\":" ++
          (Json.string words).compact ++ "\x7d\x7d" :=
  ⟨exists_serve_eq h, Reply.splitOn_encodes _, Reply.compact_badText⟩

/-- A message, a document that is none, and a text that breaks off before another message. -/
theorem serve_writes_a_line_a_document_broken :
    let event : Item :=
      .document (.object [("NAME", .string "e"), ("TYPE", .string "event"), ("UID", .int 5)])
    let items : List Item := [event, .document .null, .malformed "x", event]
    let ask := Server.ask .silent (some (.connection 1 1))
    let s : Server := .ofEngine ⟨.ofCapacity 16, .empty⟩
    let written := (serve ask s items).1
    let refused (cause : String) := "\x7b\"UID\":null,\"ERROR\":\x7b\"code\":71," ++
      "\"description\":\"protocol error\",\"cause\":\"" ++ cause ++ "\"\x7d\x7d"
    answerAll (answered ask) s (messages (documents items)) = some ([.value 5 none], s) ∧
      (∃ replies, serve ask s items = (replies ++ lastWords (interruption items), s) ∧
        RepliedInOrder ask s (documents items) replies) ∧
      (written.flatMap Reply.encode).splitOn 10 =
        written.map (fun reply => Text.bytes reply.toJson.compact) ++ [[]] ∧
      written.map (fun reply => reply.toJson.compact) = ["\x7b\"UID\":5,\"VALUE\":null\x7d",
        refused "invalid type: null, expected struct Envelope", refused "x"] := by
  intro event items ask s written refused
  have h : answerAll (answered ask) s (messages (documents items)) = some ([.value 5 none], s) := by
    rfl
  obtain ⟨hreplies, hlines, -⟩ := serve_writes_a_line_a_document h
  refine ⟨h, hreplies, hlines, ?_⟩
  decide

end Session

end TransactionEngine
