import Mathlib.Data.List.Nodup
import TransactionEngine.Proofs.Conversations
import TransactionEngine.Session.Concurrent

/-!
# The way of a request

Whatever the order of moves, requests are handled in the order in which they were put into the
queue, each at most once, and the engine is what handling them one after the other makes of it. The
request that leaves the engine asked to end is the last one that is handled.
-/

namespace TransactionEngine.Session

/-- A connection goes on, or closes, without sending a message or getting an answer. -/
inductive Client.Goes (s : System) (c : Client) : Client → Prop
  | finish (hc : c.activity = .reading) : Goes s c { c with activity := .closed }
  | close {item : Item} {items : List Item} {last : Option Reply} (hc : c.activity = .reading)
    (hi : c.items = item :: items) (hv : item.verdict = .close last) :
    Goes s c ⟨c.connection, c.past ++ [item], items, .closed, c.written ++ last.toList⟩
  | refuse {item : Item} {items : List Item} {reply : Reply} (hc : c.activity = .reading)
    (hi : c.items = item :: items) (hv : item.verdict = .refuse reply) :
    Goes s c ⟨c.connection, c.past ++ [item], items, .reading, c.written ++ [reply]⟩
  | turnAway {item : Item} {items : List Item} {incoming : Incoming} (hc : c.activity = .reading)
    (hi : c.items = item :: items) (hv : item.verdict = .pass incoming)
    (hs : s.duty.isGone = true) :
    Goes s c ⟨c.connection, c.past ++ [item], items, .closed, c.written⟩
  | giveUp {channel : Nat} (hc : c.activity = .waiting channel)
    (ha : s.answers.lookup channel = none) (hs : s.awaits channel = false) :
    Goes s c { c with activity := .closed }

/-- The stream that will come through the connection that a move opens. -/
def Move.opened : Move → List (List Item)
  | .connect items => [items]
  | _ => []

namespace System

/-- All that a move can do, with the streams of the connections that it opens. -/
inductive Change (host : Host) (s : System) : List (List Item) → System → Prop
  | connect {items : List Item} (hn : s.clients.length + 1 < UInt64.size) :
    Change host s [items] (s.addClient items)
  | goes {n : Nat} {c d : Client} (hc : s.client? n = some c) (hd : c.Goes s d) :
    Change host s [] (s.setClient n d)
  | send {n : Nat} {c : Client} {item : Item} {items : List Item} {incoming : Incoming}
    (hc : s.client? n = some c) (hr : c.activity = .reading) (hi : c.items = item :: items)
    (hv : item.verdict = .pass incoming) (hs : s.duty.isGone = false) :
    Change host s [] (s.send n { c with past := c.past ++ [item], items } incoming)
  | take {r : Request} {queue : List Request} (hd : s.duty = .idle) (hq : s.queue = r :: queue) :
    Change host s [] { s with duty := .handling r, queue }
  | answer {r : Request} {a : Answered} (hd : s.duty = .handling r)
    (ha : s.engine.handle host r.incoming (some r.context) = some a) :
    Change host s [] { s with
      engine := a.engine
      duty := if a.engine.exitRequested then .leaving else .idle
      handled := s.handled ++ [(r, a.reply)]
      answers := s.answers ++ [(r.channel, a.reply)] }
  | leave (hd : s.duty = .leaving) : Change host s [] { s with duty := .gone, queue := [] }
  | receive {n : Nat} {c : Client} {channel : Nat} {reply : Reply} (hc : s.client? n = some c)
    (hw : c.activity = .waiting channel) (ha : s.answers.lookup channel = some reply) :
    Change host s []
      { s.setClient n { c with activity := .reading, written := c.written ++ [reply] } with
        answers := s.answers.filter fun (other, _) => other ≠ channel }

variable {host : Host} {s u : System}

lemma change_of_read {n : Nat} (h : s.read n = some u) : Change host s [] u := by
  obtain ⟨c, hc, h⟩ := Option.bind_eq_some_iff.1 h
  by_cases hr : c.activity = .reading
  · rw [if_neg (not_not.2 hr)] at h
    cases hi : c.items with
    | nil =>
      rw [hi] at h
      cases h
      have hd := Client.Goes.finish (s := s) hr
      rw [hi] at hd
      exact .goes hc hd
    | cons item items =>
      rw [hi] at h
      dsimp only at h
      cases hv : item.verdict with
      | close last =>
        rw [hv] at h
        cases h
        exact .goes hc (.close hr hi hv)
      | refuse reply =>
        rw [hv] at h
        cases h
        rw [hr]
        exact .goes hc (.refuse hr hi hv)
      | pass incoming =>
        rw [hv] at h
        dsimp only at h
        by_cases hs : s.duty.isGone = true
        · rw [if_pos hs] at h
          cases h
          exact .goes hc (.turnAway hr hi hv hs)
        · rw [if_neg hs] at h
          cases h
          exact .send hc hr hi hv (eq_false_of_ne_true hs)
  · rw [if_pos hr] at h
    cases h

lemma change_of_receive {n : Nat} (h : s.receive n = some u) :
    Change host s [] u := by
  obtain ⟨c, hc, h⟩ := Option.bind_eq_some_iff.1 h
  cases hw : c.activity with
  | reading =>
    rw [hw] at h
    cases h
  | closed =>
    rw [hw] at h
    cases h
  | waiting channel =>
    rw [hw] at h
    dsimp only at h
    cases ha : s.answers.lookup channel with
    | some reply =>
      rw [ha] at h
      cases h
      exact .receive hc hw ha
    | none =>
      rw [ha] at h
      dsimp only at h
      by_cases hs : s.awaits channel = true
      · rw [if_pos hs] at h
        cases h
      · rw [if_neg hs] at h
        cases h
        exact .goes hc (.giveUp hw ha (eq_false_of_ne_true hs))

theorem change_of_move {m : Move} (h : s.move host m = some u) : Change host s m.opened u := by
  cases m with
  | connect items =>
    simp only [move, connect] at h
    split at h
    · next hn =>
      cases h
      exact .connect hn
    · cases h
  | read n => exact change_of_read h
  | receive n => exact change_of_receive h
  | take =>
    simp only [move, take] at h
    split at h
    · next r queue hd hq =>
      cases h
      exact .take hd hq
    · cases h
  | answer =>
    simp only [move, answer] at h
    split at h
    · next r hd =>
      obtain ⟨a, ha, h⟩ := Option.bind_eq_some_iff.1 h
      cases h
      exact .answer hd ha
    · cases h
  | leave =>
    simp only [move, leave] at h
    split at h
    · next hd =>
      cases h
      exact .leave hd
    · cases h

lemma run_append (moves more : List Move) :
    s.run host (moves ++ more) = (s.run host moves).bind (run host · more) :=
  List.foldlM_append

/-- What every change preserves, every run preserves. `opened` are the streams of the connections
that were opened so far. -/
theorem run_induction {p : List (List Item) → System → Prop} {opened : List (List Item)}
    {moves : List Move}
    (hp : ∀ opened s more u, Change host s more u → p opened s → p (opened ++ more) u)
    (h : s.run host moves = some u) (hs : p opened s) : p (opened ++ moves.flatMap Move.opened) u := by
  induction moves generalizing s opened with
  | nil =>
    cases h
    rw [List.flatMap_nil, List.append_nil]
    exact hs
  | cons m moves ih =>
    obtain ⟨t, ht, h⟩ := Option.bind_eq_some_iff.1 h
    rw [List.flatMap_cons, ← List.append_assoc]
    exact ih h (hp opened s m.opened t (change_of_move ht) hs)

end System

/-! ### Handling requests -/

/-- The answer to a request, and the engine after it. -/
def handling (host : Host) (e : Engine) (r : Request) : Option (Reply × Engine) :=
  (e.handle host r.incoming (some r.context)).map fun a => (a.reply, a.engine)

/-- The engine comes of `e₀` by handling requests one after the other. If it is asked to end after
one of them, that was the last one. -/
structure Serves (host : Host) (e₀ : Engine) (handled : List (Request × Reply)) (duty : Duty)
    (e : Engine) : Prop where
  engine : answerAll (handling host) e₀ (handled.map Prod.fst) = some (handled.map Prod.snd, e)
  last : ∀ k replies u, k < handled.length →
    answerAll (handling host) e₀ ((handled.take (k + 1)).map Prod.fst) = some (replies, u) →
    u.exitRequested = true → k + 1 = handled.length ∧ duty.isOver = true
  ended : duty.isOver = true → handled ≠ [] ∧ e.exitRequested = true

/-- Requests are handled in the order in which they were sent. Those that were sent are handled, in
hand or in the queue, unless the queue was given up; their channels are their places. -/
structure Flows (sent queue : List Request) (handled : List (Request × Reply)) (duty : Duty) :
    Prop where
  channels : sent.map Request.channel = List.range sent.length
  inOrder : handled.map Prod.fst ++ duty.inHand ++ queue <+: sent
  lossless : duty.isGone = false → handled.map Prod.fst ++ duty.inHand ++ queue = sent

lemma answerAll_concat {σ α : Type} {answer : σ → α → Option (Reply × σ)} {s t u : σ} {as : List α}
    {a : α} {replies : List Reply} {reply : Reply}
    (h : answerAll answer s as = some (replies, t)) (ha : answer t a = some (reply, u)) :
    answerAll answer s (as ++ [a]) = some (replies ++ [reply], u) := by
  induction as generalizing s replies with
  | nil =>
    cases h
    simp [answerAll, ha]
  | cons b as ih =>
    obtain ⟨⟨first, v⟩, hb, h⟩ := Option.bind_eq_some_iff.1 h
    obtain ⟨⟨rest, w⟩, hrest, heq⟩ := Option.map_eq_some_iff.1 h
    cases heq
    simp [answerAll, hb, ih hrest]

lemma Serves.answer {host : Host} {e₀ e : Engine} {handled : List (Request × Reply)}
    {r : Request} {a : Answered} (h : Serves host e₀ handled (.handling r) e)
    (ha : e.handle host r.incoming (some r.context) = some a) :
    Serves host e₀ (handled ++ [(r, a.reply)]) (if a.engine.exitRequested then .leaving else .idle)
      a.engine := by
  have hanswer : handling host e r = some (a.reply, a.engine) := by rw [handling, ha]; rfl
  have hall := answerAll_concat h.engine hanswer
  refine ⟨by simpa using hall, ?_, ?_⟩
  · intro k replies u hk hu hexit
    rw [List.length_append, List.length_singleton] at hk ⊢
    obtain hlt | rfl : k < handled.length ∨ k = handled.length := by omega
    · -- The engine was not over when it took the request.
      rw [List.take_append_of_le_length hlt] at hu
      obtain ⟨-, hover⟩ := h.last k replies u hlt hu hexit
      cases hover
    · rw [List.take_of_length_le (by simp), List.map_append, List.map_singleton, hall] at hu
      cases hu
      rw [if_pos hexit]
      exact ⟨rfl, rfl⟩
  · intro hover
    refine ⟨by simp, ?_⟩
    by_contra hexit
    rw [if_neg hexit] at hover
    cases hover

lemma Serves.of_isOver {host : Host} {e₀ e : Engine} {handled : List (Request × Reply)}
    {duty now : Duty} (h : Serves host e₀ handled duty e) (hd : duty.isOver = now.isOver) :
    Serves host e₀ handled now e := by
  refine ⟨h.engine, ?_, ?_⟩
  · rw [← hd]
    exact h.last
  · rw [← hd]
    exact h.ended

theorem System.Change.serves {host : Host} {e₀ : Engine} {s u : System} {more : List (List Item)}
    (h : Change host s more u)
    (hs : Serves host e₀ s.handled s.duty s.engine) :
    Serves host e₀ u.handled u.duty u.engine := by
  cases h with
  | connect | goes | send | receive => exact hs
  | take hd hq => exact hs.of_isOver (by rw [hd]; rfl)
  | leave hd => exact hs.of_isOver (by rw [hd]; rfl)
  | answer hd ha =>
    rw [hd] at hs
    exact hs.answer ha

/-- A request goes on from the queue to the engine, or from there to those that were handled. -/
lemma Flows.of_eq {sent queue queue' : List Request} {handled handled' : List (Request × Reply)}
    {duty duty' : Duty} (h : Flows sent queue handled duty) (hd : duty.isGone = false)
    (heq : handled'.map Prod.fst ++ duty'.inHand ++ queue' =
      handled.map Prod.fst ++ duty.inHand ++ queue) : Flows sent queue' handled' duty' := by
  refine ⟨h.channels, ?_, fun _ => ?_⟩
  · rw [heq]
    exact h.inOrder
  · rw [heq]
    exact h.lossless hd

theorem System.Change.flows {host : Host} {s u : System} {more : List (List Item)}
    (h : Change host s more u)
    (hs : Flows s.sent s.queue s.handled s.duty) : Flows u.sent u.queue u.handled u.duty := by
  cases h with
  | connect | goes | receive => exact hs
  | send hc hr hi hv hgone =>
    have hall (r : Request) :
        s.handled.map Prod.fst ++ s.duty.inHand ++ (s.queue ++ [r]) = s.sent ++ [r] := by
      rw [← List.append_assoc, hs.lossless hgone]
    refine ⟨?_, ⟨[], (List.append_nil _).trans (hall _)⟩, fun _ => hall _⟩
    change (s.sent ++ [_]).map Request.channel = List.range (s.sent ++ [_]).length
    rw [List.map_append, hs.channels, List.length_append, List.length_singleton, List.range_succ]
    rfl
  | take hd hq =>
    refine hs.of_eq (by rw [hd]; rfl) ?_
    rw [hd, hq]
    simp [Duty.inHand]
  | @answer r a hd =>
    refine hs.of_eq (by rw [hd]; rfl) ?_
    rw [hd]
    cases a.engine.exitRequested <;> simp [Duty.inHand]
  | leave hd =>
    rw [hd] at hs
    refine ⟨hs.channels, ?_, nofun⟩
    simpa [Duty.inHand] using (List.prefix_append _ _).trans hs.inOrder

namespace Flows

variable {sent queue : List Request} {handled : List (Request × Reply)} {duty : Duty}

lemma getElem?_channel (h : Flows sent queue handled duty) {i : Nat} {r : Request}
    (hr : sent[i]? = some r) : r.channel = i := by
  obtain ⟨hlt, -⟩ := List.getElem?_eq_some_iff.1 hr
  have hi : (sent.map Request.channel)[i]? = some i := by
    rw [h.channels, List.getElem?_range hlt]
  rw [List.getElem?_map, hr] at hi
  exact Option.some.inj hi

lemma nodup (h : Flows sent queue handled duty) : sent.Nodup := by
  apply List.Nodup.of_map Request.channel
  rw [h.channels]
  exact List.nodup_range

lemma eq_of_channel (h : Flows sent queue handled duty) {r q : Request} (hr : r ∈ sent)
    (hq : q ∈ sent) (heq : r.channel = q.channel) : r = q := by
  obtain ⟨i, hi⟩ := List.mem_iff_getElem?.1 hr
  obtain ⟨j, hj⟩ := List.mem_iff_getElem?.1 hq
  rw [h.getElem?_channel hi, h.getElem?_channel hj] at heq
  rw [heq, hj] at hi
  exact (Option.some.inj hi).symm

lemma mem_sent_of_handled (h : Flows sent queue handled duty) {r : Request} {reply : Reply}
    (hr : (r, reply) ∈ handled) : r ∈ sent := by
  refine h.inOrder.subset ?_
  rw [List.append_assoc]
  exact List.mem_append_left _ (List.mem_map_of_mem hr)

lemma mem_sent_of_pending (h : Flows sent queue handled duty) {r : Request}
    (hr : r ∈ duty.inHand ++ queue) : r ∈ sent := by
  refine h.inOrder.subset ?_
  rw [List.append_assoc]
  exact List.mem_append_right _ hr

lemma channel_ne (h : Flows sent queue handled duty) {r q : Request} {reply : Reply}
    (hr : (r, reply) ∈ handled) (hq : q ∈ duty.inHand ++ queue) : r.channel ≠ q.channel := by
  intro heq
  have hnodup := h.inOrder.sublist.nodup h.nodup
  rw [List.append_assoc] at hnodup
  have hdisjoint := List.disjoint_of_nodup_append hnodup
  have hsame := h.eq_of_channel (h.mem_sent_of_handled hr) (h.mem_sent_of_pending hq) heq
  exact hdisjoint (List.mem_map_of_mem hr) (hsame ▸ hq)

end Flows

end TransactionEngine.Session
