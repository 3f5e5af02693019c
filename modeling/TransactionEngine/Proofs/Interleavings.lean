import TransactionEngine.Proofs.ClientReplies
import TransactionEngine.Proofs.RegistryMaps

/-!
# Connections that are served at the same time

In whatever order the connections and the engine move, every connection gets the replies to its own
messages, one each and in the order in which it read them, and no other replies. The answer to the
request that asked the engine to end still arrives, and it is the last one to arrive anywhere.
-/

namespace TransactionEngine.Session

namespace System

variable {s u : System} {n m : Nat} {c d : Client}

lemma client?_setClient (hc : s.client? n = some c) (d : Client) (m : Nat) :
    (s.setClient n d).client? m = if m = n then some d else s.client? m := by
  cases n with
  | zero => cases hc
  | succ n =>
    obtain ⟨hlt, -⟩ := List.getElem?_eq_some_iff.1 hc
    cases m with
    | zero => rfl
    | succ m =>
      change (s.clients.set n d)[m]? = _
      by_cases hm : m = n
      · rw [if_pos (by rw [hm]), hm, List.getElem?_set_self hlt]
      · rw [if_neg (by omega), List.getElem?_set_ne (Ne.symm hm)]
        rfl

lemma client?_addClient (s : System) (items : List Item) (m : Nat) :
    (s.addClient items).client? m =
      if m = s.clients.length + 1 then some (.open m items) else s.client? m := by
  cases m with
  | zero => rfl
  | succ m =>
    change (s.clients ++ [_])[m]? = _
    by_cases hm : m = s.clients.length
    · rw [if_pos (by rw [hm]), hm, List.getElem?_concat_length]
    · rw [if_neg (by omega), List.getElem?_append]
      split
      · rfl
      · next hle =>
        rw [List.getElem?_eq_none (by simp; omega)]
        exact (List.getElem?_eq_none (by omega)).symm

lemma le_of_client? (hc : s.client? n = some c) : n ≤ s.clients.length := by
  cases n with
  | zero => exact Nat.zero_le _
  | succ n => exact (List.getElem?_eq_some_iff.1 hc).1

lemma lookup_filter_ne (answers : List (Nat × Reply)) (channel i : Nat) :
    (answers.filter fun (other, _) => other ≠ channel).lookup i =
      if i = channel then none else answers.lookup i := by
  induction answers with
  | nil => simp
  | cons answer answers ih =>
    obtain ⟨other, reply⟩ := answer
    by_cases ho : other = channel
    · subst ho
      rw [List.filter_cons_of_neg (by simp), ih]
      split
      · rfl
      · next hi => rw [List.lookup_cons, beq_false_of_ne hi]
    · rw [List.filter_cons_of_pos (by simpa using ho), List.lookup_cons, List.lookup_cons, ih]
      by_cases hi : i = other
      · subst hi
        rw [beq_self_eq_true]
        exact (if_neg ho).symm
      · rw [beq_false_of_ne hi]

/-- The connections are sound, and each request has the connection that it came through: this one
waits for the answer, or has written it in the place of the message. -/
structure Attended (s : System) : Prop where
  sound : ∀ n c, s.client? n = some c → c.Sound s.sent s.handled n
  owner : ∀ r ∈ s.sent, ∃ c, s.client? r.client = some c ∧ r.context = c.connection
  pending : ∀ r ∈ s.duty.inHand ++ s.queue, ∃ c, s.client? r.client = some c ∧
    c.activity = .waiting r.channel
  answers : ∀ channel reply, s.answers.lookup channel = some reply →
    ∃ r, (r, reply) ∈ s.handled ∧ r.channel = channel
  delivered : ∀ r reply, (r, reply) ∈ s.handled → ∃ c, s.client? r.client = some c ∧
    (Delivered s.sent c r reply ∨
      c.activity = .waiting r.channel ∧ s.answers.lookup r.channel = some reply)

/-- Connection `n` moved on its own, from `c` to `d`, and put `more` into the queue. -/
structure OneMoved (s u : System) (n : Nat) (c d : Client) (more : List Request) : Prop where
  before : s.client? n = some c
  after : ∀ m, u.client? m = if m = n then some d else s.client? m
  extended : c.Extends d
  sound : d.Sound u.sent u.handled n
  sent : u.sent = s.sent ++ more
  pending : u.duty.inHand ++ u.queue = s.duty.inHand ++ s.queue ++ more
  handled : u.handled = s.handled
  own : ∀ r ∈ more, r.client = n ∧ r.context = c.connection ∧ d.activity = .waiting r.channel
  free : ∀ r ∈ s.duty.inHand ++ s.queue, r.client ≠ n
  answers : ∀ channel reply, u.answers.lookup channel = some reply →
    s.answers.lookup channel = some reply
  kept : ∀ r ∈ s.sent, r.client ≠ n → u.answers.lookup r.channel = s.answers.lookup r.channel
  written : ∀ r reply, (r, reply) ∈ s.handled → r.client = n → c.activity = .waiting r.channel →
    s.answers.lookup r.channel = some reply → Delivered u.sent d r reply

namespace OneMoved

variable {more : List Request}

lemma after_self (h : OneMoved s u n c d more) : u.client? n = some d := by
  rw [h.after, if_pos rfl]

lemma after_other (h : OneMoved s u n c d more) (hm : m ≠ n) : u.client? m = s.client? m := by
  rw [h.after, if_neg hm]

lemma sent_grows (h : OneMoved s u n c d more) : s.sent <+: u.sent := by
  rw [h.sent]
  exact List.prefix_append _ _

/-- What a connection was, if it is given, and what became of it. -/
lemma exists_extends (h : OneMoved s u n c d more) {b : Client} (hb : s.client? m = some b) :
    ∃ b', u.client? m = some b' ∧ b.Extends b' := by
  by_cases hm : m = n
  · subst hm
    rw [h.before] at hb
    cases hb
    exact ⟨d, h.after_self, h.extended⟩
  · exact ⟨b, by rw [h.after_other hm, hb], ⟨rfl, rfl, List.prefix_rfl, List.prefix_rfl⟩⟩

theorem attended (h : OneMoved s u n c d more) (hf : Flows s.sent s.queue s.handled s.duty)
    (ha : Attended s) : Attended u where
  sound m b hb := by
    by_cases hm : m = n
    · subst hm
      rw [h.after_self] at hb
      cases hb
      exact h.sound
    · rw [h.after_other hm] at hb
      refine (ha.sound m b hb).mono h.sent_grows ?_ (h.handled ▸ List.prefix_rfl)
      rw [h.sent]
      exact requestsOf_append_other fun r hr => by rw [(h.own r hr).1]; exact Ne.symm hm
  owner r hr := by
    rw [h.sent] at hr
    obtain hr | hr := List.mem_append.1 hr
    · obtain ⟨b, hb, hcontext⟩ := ha.owner r hr
      obtain ⟨b', hb', hextends⟩ := h.exists_extends hb
      exact ⟨b', hb', by rw [hcontext, hextends.connection]⟩
    · obtain ⟨hn, hcontext, -⟩ := h.own r hr
      exact ⟨d, by rw [hn, h.after_self], by rw [hcontext, h.extended.connection]⟩
  pending r hr := by
    rw [h.pending] at hr
    obtain hr | hr := List.mem_append.1 hr
    · obtain ⟨b, hb, hw⟩ := ha.pending r hr
      exact ⟨b, by rw [h.after_other (h.free r hr), hb], hw⟩
    · obtain ⟨hn, -, hw⟩ := h.own r hr
      exact ⟨d, by rw [hn, h.after_self], hw⟩
  answers channel reply hlookup := by
    rw [h.handled]
    exact ha.answers channel reply (h.answers channel reply hlookup)
  delivered r reply hr := by
    rw [h.handled] at hr
    obtain ⟨b, hb, hdelivered | ⟨hw, hlookup⟩⟩ := ha.delivered r reply hr
    · obtain ⟨b', hb', hextends⟩ := h.exists_extends hb
      exact ⟨b', hb', .inl (hdelivered.mono h.sent_grows hextends.past hextends.written)⟩
    · by_cases hn : r.client = n
      · rw [hn, h.before] at hb
        cases hb
        exact ⟨d, by rw [hn, h.after_self], .inl (h.written r reply hr hn hw hlookup)⟩
      · refine ⟨b, by rw [h.after_other hn, hb], .inr ⟨hw, ?_⟩⟩
        rw [h.kept r (hf.mem_sent_of_handled hr) hn, hlookup]

end OneMoved

namespace Attended

lemma client_of_waiting (ha : Attended s) (hf : Flows s.sent s.queue s.handled s.duty)
    (hc : s.client? n = some c) {r : Request} (hr : r ∈ s.sent)
    (hw : c.activity = .waiting r.channel) : r.client = n := by
  obtain ⟨-, -, -, q, -, -, hplace, hq⟩ := (ha.sound n c hc).waiting r.channel hw
  obtain ⟨hsent, hn⟩ := mem_requestsOf.1 (List.mem_of_getElem? hplace)
  rw [← hf.eq_of_channel hsent hr hq, hn]

/-- A connection for which a request waits can do nothing on its own. -/
lemma free_of_not_waiting (ha : Attended s) (hc : s.client? n = some c)
    (hw : ∀ r ∈ s.duty.inHand ++ s.queue, c.activity ≠ .waiting r.channel) :
    ∀ r ∈ s.duty.inHand ++ s.queue, r.client ≠ n := by
  rintro r hr rfl
  obtain ⟨b, hb, hwaiting⟩ := ha.pending r hr
  rw [hc] at hb
  cases hb
  exact hw r hr hwaiting

lemma goes (ha : Attended s) (hc : s.client? n = some c) (hd : c.Goes s d) :
    OneMoved s (s.setClient n d) n c d [] where
  before := hc
  after := client?_setClient hc d
  extended := hd.extends
  sound := hd.sound (ha.sound n c hc)
  sent := (List.append_nil _).symm
  pending := (List.append_nil _).symm
  handled := rfl
  own := nofun
  free := by
    refine ha.free_of_not_waiting hc fun r hr hw => ?_
    obtain ⟨-, hawaits⟩ := hd.unanswered hw
    have hany : s.awaits r.channel = true := List.any_eq_true.2 ⟨r, hr, by simp⟩
    rw [hany] at hawaits
    cases hawaits
  answers _ _ h := h
  kept _ _ _ := rfl
  written r reply _ _ hw hlookup := by
    rw [(hd.unanswered hw).1] at hlookup
    cases hlookup

lemma send (ha : Attended s) {item : Item} {items : List Item} {incoming : Incoming}
    (hc : s.client? n = some c) (hr : c.activity = .reading) (hi : c.items = item :: items)
    (hv : item.verdict = .pass incoming) :
    let r : Request := ⟨n, c.connection, incoming, s.sent.length⟩
    OneMoved s (s.send n { c with past := c.past ++ [item], items } incoming) n c
      ⟨c.connection, c.past ++ [item], items, .waiting r.channel, c.written⟩ [r] where
  before := hc
  after := client?_setClient hc _
  extended := ⟨rfl, Client.stream_read hi, List.prefix_append _ _, List.prefix_rfl⟩
  sound := Client.Sound.send (ha.sound n c hc) hr (by rw [passed?, hv]) items
  sent := rfl
  pending := (List.append_assoc _ _ _).symm
  handled := rfl
  own r hmem := by
    obtain rfl := List.mem_singleton.1 hmem
    exact ⟨rfl, rfl, rfl⟩
  free := by
    refine ha.free_of_not_waiting hc fun r _ hw => ?_
    rw [hr] at hw
    cases hw
  answers _ _ h := h
  kept _ _ _ := rfl
  written r reply _ _ hw := by
    rw [hr] at hw
    cases hw

lemma receive (ha : Attended s) (hf : Flows s.sent s.queue s.handled s.duty) {channel : Nat}
    {reply : Reply} (hc : s.client? n = some c) (hw : c.activity = .waiting channel)
    (hlookup : s.answers.lookup channel = some reply) :
    OneMoved s
      { s.setClient n { c with activity := .reading, written := c.written ++ [reply] } with
        answers := s.answers.filter fun (other, _) => other ≠ channel }
      n c { c with activity := .reading, written := c.written ++ [reply] } [] := by
  obtain ⟨r, hr, rfl⟩ := ha.answers channel reply hlookup
  have hsent := hf.mem_sent_of_handled hr
  -- The channel tells that the answer is one to the request that the connection waits for.
  obtain ⟨hsound, hdelivered⟩ := (ha.sound n c hc).receive hw hr
    fun q hq heq => hf.eq_of_channel hq hsent heq
  refine ⟨hc, client?_setClient hc _, ?_, hsound, (List.append_nil _).symm,
    (List.append_nil _).symm, rfl, nofun, ?_, ?_, ?_, ?_⟩
  · exact ⟨rfl, rfl, List.prefix_rfl, List.prefix_append _ _⟩
  · refine ha.free_of_not_waiting hc fun q hq hwaiting => ?_
    rw [hw] at hwaiting
    exact hf.channel_ne hr hq (Activity.waiting.inj hwaiting)
  · intro i reply' hi
    rw [lookup_filter_ne] at hi
    split at hi
    · cases hi
    · exact hi
  · intro q hq hn
    rw [lookup_filter_ne, if_neg]
    intro heq
    rw [← heq] at hw
    exact hn (ha.client_of_waiting hf hc hq hw)
  · intro q reply' hq _ hwaiting hlookup'
    rw [hw] at hwaiting
    obtain rfl := hf.eq_of_channel hsent (hf.mem_sent_of_handled hq) (Activity.waiting.inj hwaiting)
    rw [hlookup] at hlookup'
    cases hlookup'
    exact hdelivered

end Attended

/-! ### What a move preserves -/

variable {host : Host} {more : List (List Item)}

lemma Attended.connect (ha : Attended s) (items : List Item) :
    Attended (s.addClient items) := by
  have hkept {m : Nat} {b : Client} (hb : s.client? m = some b) :
      (s.addClient items).client? m = some b := by
    have hle := le_of_client? hb
    rw [client?_addClient, if_neg (by omega), hb]
  refine ⟨?_, ?_, ?_, ha.answers, ?_⟩
  · intro m b hb
    rw [client?_addClient] at hb
    split at hb
    · next hm =>
      cases hb
      subst hm
      -- No request came through a connection with this number yet.
      refine Client.sound_open items (List.eq_nil_iff_forall_not_mem.2 fun r hr => ?_)
      obtain ⟨hsent, hn⟩ := mem_requestsOf.1 hr
      obtain ⟨c, hc, -⟩ := ha.owner r hsent
      have hle := le_of_client? hc
      omega
    · exact ha.sound m b hb
  · intro r hr
    obtain ⟨c, hc, hcontext⟩ := ha.owner r hr
    exact ⟨c, hkept hc, hcontext⟩
  · intro r hr
    obtain ⟨c, hc, hw⟩ := ha.pending r hr
    exact ⟨c, hkept hc, hw⟩
  · intro r reply hr
    obtain ⟨c, hc, hdelivered⟩ := ha.delivered r reply hr
    exact ⟨c, hkept hc, hdelivered⟩

lemma Attended.answer (ha : Attended s) (hf : Flows s.sent s.queue s.handled s.duty) {r : Request}
    (hd : s.duty = .handling r) (reply : Reply) (e : Engine) {duty : Duty}
    (hduty : duty.inHand = []) :
    Attended { s with
      engine := e
      duty := duty
      handled := s.handled ++ [(r, reply)]
      answers := s.answers ++ [(r.channel, reply)] } := by
  have hhand : r ∈ s.duty.inHand ++ s.queue := by
    rw [hd]
    exact List.mem_cons_self
  -- An answer in this channel would be one to a request that was handled before.
  have hempty : s.answers.lookup r.channel = none := by
    by_contra hne
    obtain ⟨first, hfirst⟩ := Option.ne_none_iff_exists'.1 hne
    obtain ⟨q, hq, hchannel⟩ := ha.answers r.channel first hfirst
    exact hf.channel_ne hq hhand hchannel
  refine ⟨?_, ha.owner, ?_, ?_, ?_⟩
  · intro n c hc
    exact (ha.sound n c hc).mono List.prefix_rfl rfl (List.prefix_append _ _)
  · intro q hq
    dsimp only at hq
    rw [hduty] at hq
    exact ha.pending q (List.mem_append_right _ hq)
  · intro channel answer hlookup
    dsimp only at hlookup ⊢
    rw [List.lookup_append, Option.or_eq_some_iff] at hlookup
    obtain hold | ⟨-, hnew⟩ := hlookup
    · obtain ⟨q, hq, hchannel⟩ := ha.answers channel answer hold
      exact ⟨q, List.mem_append_left _ hq, hchannel⟩
    · obtain ⟨hchannel, rfl⟩ : channel = r.channel ∧ reply = answer := by
        rw [List.lookup_cons] at hnew
        split at hnew
        · next heq => exact ⟨beq_iff_eq.1 heq, Option.some.inj hnew⟩
        · cases hnew
      exact ⟨r, List.mem_append_right _ List.mem_cons_self, hchannel.symm⟩
  · intro q answer hq
    dsimp only at hq ⊢
    obtain hold | hnew := List.mem_append.1 hq
    · obtain ⟨c, hc, hdelivered | ⟨hw, hlookup⟩⟩ := ha.delivered q answer hold
      · exact ⟨c, hc, .inl hdelivered⟩
      · exact ⟨c, hc, .inr ⟨hw, by rw [List.lookup_append, hlookup, Option.some_or]⟩⟩
    · cases List.mem_singleton.1 hnew
      obtain ⟨c, hc, hw⟩ := ha.pending r hhand
      refine ⟨c, hc, .inr ⟨hw, ?_⟩⟩
      rw [List.lookup_append, hempty, Option.none_or, List.lookup_cons_self]

theorem Change.attended (h : Change host s more u)
    (hf : Flows s.sent s.queue s.handled s.duty) (ha : Attended s) : Attended u := by
  cases h with
  | connect => exact ha.connect _
  | goes hc hd => exact (ha.goes hc hd).attended hf ha
  | send hc hr hi hv => exact (ha.send hc hr hi hv).attended hf ha
  | receive hc hw hlookup => exact (ha.receive hf hc hw hlookup).attended hf ha
  | leave => exact ⟨ha.sound, ha.owner, nofun, ha.answers, ha.delivered⟩
  | take hd hq =>
    refine ⟨ha.sound, ha.owner, fun r hr => ha.pending r ?_, ha.answers, ha.delivered⟩
    rw [hd, hq]
    exact hr
  | @answer r a hd =>
    refine ha.answer hf hd a.reply a.engine ?_
    split <;> rfl

lemma streams_setClient (hc : s.client? n = some c) (hd : d.stream = c.stream) :
    (s.setClient n d).clients.map Client.stream = s.clients.map Client.stream := by
  cases n with
  | zero => cases hc
  | succ n =>
    obtain ⟨hlt, hget⟩ := List.getElem?_eq_some_iff.1 hc
    change (s.clients.set n d).map Client.stream = _
    have hlt' : n < (s.clients.map Client.stream).length := by rwa [List.length_map]
    have hget' : (s.clients.map Client.stream)[n] = c.stream := by rw [List.getElem_map, hget]
    rw [List.map_set, hd, ← hget', List.set_getElem_self]

lemma Change.streams (h : Change host s more u) :
    u.clients.map Client.stream = s.clients.map Client.stream ++ more := by
  cases h with
  | connect => exact List.map_append
  | goes hc hd => rw [streams_setClient hc hd.extends.stream, List.append_nil]
  | send hc _ hi => exact (streams_setClient hc (Client.stream_read hi)).trans (List.append_nil _).symm
  | receive hc =>
    refine (streams_setClient hc ?_).trans (List.append_nil _).symm
    rfl
  | take | answer | leave => exact (List.append_nil _).symm

lemma Change.numbered (h : Change host s more u) (hs : s.clients.length < UInt64.size) :
    u.clients.length < UInt64.size := by
  have hstreams := congrArg List.length h.streams
  rw [List.length_append, List.length_map, List.length_map] at hstreams
  cases h with
  | connect hn => simpa [addClient] using hn
  | goes | send | receive | take | answer | leave =>
    rw [hstreams]
    exact hs

/-- What holds of a system whose engine was `e₀` at first, and whose connections were opened on the
streams `opened`. -/
structure Kept (host : Host) (e₀ : Engine) (opened : List (List Item)) (s : System) : Prop where
  streams : s.clients.map Client.stream = opened
  numbered : s.clients.length < UInt64.size
  serves : Serves host e₀ s.handled s.duty s.engine
  flows : Flows s.sent s.queue s.handled s.duty
  attended : Attended s

lemma kept_ofEngine (host : Host) (e₀ : Engine) : Kept host e₀ [] (.ofEngine e₀) where
  streams := rfl
  numbered := by
    change 0 < UInt64.size
    decide
  serves := ⟨rfl, nofun, nofun⟩
  flows := ⟨rfl, List.prefix_rfl, fun _ => rfl⟩
  attended := by
    refine ⟨?_, ?_, ?_, ?_, ?_⟩
    · intro n c hc
      cases n <;> cases hc
    · intro r hr
      cases hr
    · intro r hr
      cases hr
    · intro channel reply hlookup
      cases hlookup
    · intro r reply hr
      cases hr

lemma Change.kept {e₀ : Engine} {opened : List (List Item)} (h : Change host s more u)
    (hs : Kept host e₀ opened s) : Kept host e₀ (opened ++ more) u where
  streams := by rw [h.streams, hs.streams]
  numbered := h.numbered hs.numbered
  serves := h.serves hs.serves
  flows := h.flows hs.flows
  attended := h.attended hs.flows hs.attended

/-- After the engine was asked to end, it handles nothing more. -/
lemma run_handled_of_isOver {moves : List Move} (h : s.run host moves = some u)
    (hs : s.duty.isOver = true) : u.handled = s.handled ∧ u.engine = s.engine := by
  let p (_ : List (List Item)) (t : System) : Prop :=
    t.duty.isOver = true ∧ t.handled = s.handled ∧ t.engine = s.engine
  have hp : ∀ opened t more v, Change host t more v → p opened t → p (opened ++ more) v := by
    rintro - t more v hv ⟨hover, hsame⟩
    cases hv with
    | connect | goes | send | receive => exact ⟨hover, hsame⟩
    | leave => exact ⟨rfl, hsame⟩
    | take hd | answer hd =>
      rw [hd] at hover
      cases hover
  have hlast : p ([] ++ moves.flatMap Move.opened) u := run_induction hp h ⟨hs, rfl, rfl⟩
  exact hlast.2

/-- Connections that are served in good order. What a connection has read is the beginning of its
stream, all its requests but one at most were replied to, and it has written the replies to its own
first items; a request that was handled has its reply there, or its connection can take it. Requests
are handled in the order of the queue, none of them twice, and the one after which the engine is
asked to end is the last. -/
structure Orderly (host : Host) (e₀ : Engine) (opened : List (List Item)) (s : System) : Prop where
  stream : ∀ n c, s.client? (n + 1) = some c → opened[n]? = some (c.past ++ c.items)
  outstanding : ∀ n c, s.client? n = some c → ∃ waiting : List Incoming, waiting.length ≤ 1 ∧
    (requestsOf s.sent n).map Request.incoming = passed (c.past.take c.written.length) ++ waiting
  inOrder : s.handled.map Prod.fst <+: s.sent
  nodup : s.sent.Nodup
  lossless : s.duty.isGone = false → s.handled.map Prod.fst ++ s.duty.inHand ++ s.queue = s.sent
  engine : answerAll (handling host) e₀ (s.handled.map Prod.fst) =
    some (s.handled.map Prod.snd, s.engine)
  replies : ∀ n c, s.client? n = some c → RepliesInOrder s.sent s.handled n c.past c.written
  context : ∀ r ∈ s.sent, ∃ c, s.client? r.client = some c ∧ r.context = c.connection
  connection : ∀ n c, s.client? n = some c → c.connection = .connection n (UInt64.ofNat n)
  ids : ∀ m n c d, s.client? m = some c → s.client? n = some d →
    c.connection.connectionId? = d.connection.connectionId? → m = n
  last : ∀ k replies e, k < s.handled.length →
    answerAll (handling host) e₀ ((s.handled.take (k + 1)).map Prod.fst) = some (replies, e) →
    e.exitRequested = true → k + 1 = s.handled.length ∧ s.duty.isOver = true
  ended : s.duty.isOver = true ↔ s.handled ≠ [] ∧ s.engine.exitRequested = true
  delivered : ∀ r reply, (r, reply) ∈ s.handled → ∃ t : System,
    (t = s ∨ s.receive r.client = some t) ∧
      ∃ c, t.client? r.client = some c ∧ Delivered t.sent c r reply

lemma Attended.connectionId_eq (ha : Attended s) (hs : s.clients.length < UInt64.size)
    (hc : s.client? m = some c) (hd : s.client? n = some d)
    (hid : c.connection.connectionId? = d.connection.connectionId?) : m = n := by
  rw [(ha.sound m c hc).connection, (ha.sound n d hd).connection] at hid
  have hm := le_of_client? hc
  have hn := le_of_client? hd
  have hnat := congrArg UInt64.toNat (Option.some.inj hid)
  rwa [UInt64.toNat_ofNat_of_lt' (by omega), UInt64.toNat_ofNat_of_lt' (by omega)] at hnat

lemma Attended.exists_delivered (ha : Attended s) (hf : Flows s.sent s.queue s.handled s.duty)
    {r : Request} {reply : Reply} (hr : (r, reply) ∈ s.handled) :
    ∃ t : System, (t = s ∨ s.receive r.client = some t) ∧
      ∃ c, t.client? r.client = some c ∧ Delivered t.sent c r reply := by
  obtain ⟨c, hc, hdelivered | ⟨hw, hlookup⟩⟩ := ha.delivered r reply hr
  · exact ⟨s, .inl rfl, c, hc, hdelivered⟩
  · have hmoved := ha.receive hf hc hw hlookup
    refine ⟨_, .inr ?_, _, hmoved.after_self, hmoved.written r reply hr rfl hw hlookup⟩
    simp [System.receive, setClient, hc, hw, hlookup]

lemma Kept.orderly {e₀ : Engine} {opened : List (List Item)} (h : Kept host e₀ opened s) :
    Orderly host e₀ opened s where
  stream n c hc := by
    rw [← h.streams, List.getElem?_map]
    exact congrArg _ hc
  outstanding n c hc := (h.attended.sound n c hc).outstanding
  inOrder := by
    have hprefix := h.flows.inOrder
    rw [List.append_assoc] at hprefix
    exact (List.prefix_append _ _).trans hprefix
  nodup := h.flows.nodup
  lossless := h.flows.lossless
  engine := h.serves.engine
  replies n c hc := (h.attended.sound n c hc).replies
  context := h.attended.owner
  connection n c hc := (h.attended.sound n c hc).connection
  ids m n c d := h.attended.connectionId_eq h.numbered
  last := h.serves.last
  ended := by
    refine ⟨h.serves.ended, fun ⟨hne, hexit⟩ => ?_⟩
    have hlength := List.length_pos_iff.2 hne
    refine (h.serves.last (s.handled.length - 1) (s.handled.map Prod.snd) s.engine (by omega) ?_
      hexit).2
    rw [Nat.sub_add_cancel hlength, List.take_length]
    exact h.serves.engine
  delivered r reply := h.attended.exists_delivered h.flows

/-- However the moves of connections and engine mix, each connection gets the replies to its own
messages, one each and in order, from an engine that handles the requests of all one after the
other until it is asked to end; nothing is handled after that. -/
theorem run_orderly {e₀ : Engine} {moves : List Move}
    (h : (ofEngine e₀).run host moves = some s) :
    Orderly host e₀ (moves.flatMap Move.opened) s ∧
      (s.duty.isOver = true → ∀ more u, s.run host more = some u →
        u.handled = s.handled ∧ u.engine = s.engine) := by
  have hkept : Kept host e₀ ([] ++ moves.flatMap Move.opened) s :=
    run_induction (fun _ _ _ _ hchange hs => hchange.kept hs) h (kept_ofEngine host e₀)
  exact ⟨hkept.orderly, fun hover _ _ hu => run_handled_of_isOver hu hover⟩

/-- Two connections whose messages mix. The first one asks the engine to end when the second one
has a message in the queue. -/
theorem run_orderly_ended :
    let t : Transaction := ⟨0, "t", ⟨false, true⟩, none, some "quit", [⟨.special .exit, []⟩]⟩
    let e₀ : Engine := ⟨⟨.ofCapacity 16, [("t", t)], [("quit", ["t"])], false⟩, .empty⟩
    let event (name : String) : Item :=
      .document (.object [("NAME", .string name), ("TYPE", .string "event"), ("UID", .int 5)])
    let before : List Move :=
      [.connect [.document .null, event "quit"], .connect [event "open", event "close"], .read 2,
        .read 1, .read 1, .take, .answer, .take, .receive 2, .read 2]
    let after : List Move := [.answer, .leave, .receive 1, .receive 2]
    ∃ s, (ofEngine e₀).run .silent (before ++ after) = some s ∧ s.duty.isOver = true ∧
      Orderly .silent e₀ ((before ++ after).flatMap Move.opened) s ∧
      (s.duty.isOver = true → ∀ more u, s.run .silent more = some u →
        u.handled = s.handled ∧ u.engine = s.engine) := by
  intro t e₀ event before after
  let opening : Request := ⟨2, .connection 2 2, .message (.event 5 "open"), 0⟩
  let quitting : Request := ⟨1, .connection 1 1, .message (.event 5 "quit"), 1⟩
  let closing : Request := ⟨2, .connection 2 2, .message (.event 5 "close"), 2⟩
  let refusal : Reply := .error none (.badMessage (.shape (.wrongType (Json.null).found "struct Envelope")))
  let first : Client :=
    ⟨.connection 1 1, [.document .null, event "quit"], [], .waiting 1, [refusal]⟩
  let second : Client :=
    ⟨.connection 2 2, [event "open", event "close"], [], .waiting 2, [.value 5 none]⟩
  let s : System := ⟨e₀, .handling quitting, [opening, quitting, closing], [closing],
    [(opening, .value 5 none)], [], [first, second]⟩
  have hbefore : (ofEngine e₀).run .silent before = some s := by rfl
  let context : Option Object := some quitting.context
  let p : Processor := { Processor.start (.ofCapacity 16) context with phase := .running }
  have hrun : Processor.run .silent t.statements (.start (.ofCapacity 16) context) = some
      (({ p with pc := 1, exitRequested := true } : Processor).finish.after []) :=
    (Processor.runOn_eq_some_iff (p := p) (Nat.le_refl 0)).2 ⟨2, .on rfl (.ended rfl)⟩
  have hexecute : e₀.registry.execute .silent t.statements context =
      some ⟨{ e₀.registry with exitRequested := true }, .ok none, []⟩ := by
    have hstack : e₀.registry.stack = .ofCapacity 16 := rfl
    rw [Registry.execute_eq hstack, hstack, hrun]
    rfl
  have hhandle : e₀.handle .silent quitting.incoming context =
      some ⟨⟨{ e₀.registry with exitRequested := true }, .empty⟩, .value 5 none, []⟩ := by
    change Option.map _ (Option.map _ ((e₀.registry.execute .silent t.statements context).bind _)) = _
    rw [hexecute]
    rfl
  have hafter : ∃ u, s.run .silent after = some u ∧ u.duty.isOver = true := by
    change ∃ u, Option.bind ((e₀.handle .silent quitting.incoming context).bind _) _ = some u ∧ _
    rw [hhandle]
    exact ⟨_, rfl, rfl⟩
  obtain ⟨u, hu, hover⟩ := hafter
  have h : (ofEngine e₀).run .silent (before ++ after) = some u := by
    rw [run_append, hbefore]
    exact hu
  exact ⟨u, h, hover, run_orderly h⟩

end System

end TransactionEngine.Session
