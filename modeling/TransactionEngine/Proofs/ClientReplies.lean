import TransactionEngine.Proofs.RequestFlow

/-!
# The replies of one connection

A connection reads one item after the other. For every item it writes at most one reply, its own
refusal or the answer to the very request that the item became, and it reads no further before that.
So at most one of its requests is outstanding at any time.
-/

namespace TransactionEngine.Session

/-- The message that an item is passed on as, if it is. -/
def passed? (item : Item) : Option Incoming :=
  match item.verdict with
  | .pass incoming => some incoming
  | _ => none

/-- The messages among items that are passed on. -/
def passed (items : List Item) : List Incoming :=
  items.filterMap passed?

/-- The requests that came through a connection, first one first. -/
def requestsOf (sent : List Request) (n : Nat) : List Request :=
  sent.filter fun r => r.client = n

/-- Connection `n` gets `reply` to an item that it read after others: its own error for what is
refused, and for what is passed on the answer to that very request, which is as many places down
among the requests of the connection as messages were passed on before. -/
def Replies (sent : List Request) (handled : List (Request × Reply)) (n : Nat) (before : List Item)
    (item : Item) (reply : Reply) : Prop :=
  match item.verdict with
  | .close last => last = some reply
  | .refuse refusal => reply = refusal
  | .pass incoming => ∃ r, (r, reply) ∈ handled ∧ r.incoming = incoming ∧
      (requestsOf sent n)[(passed before).length]? = some r

/-- The replies that were written are those to the first items that were read, one each. -/
def RepliesInOrder (sent : List Request) (handled : List (Request × Reply)) (n : Nat)
    (past : List Item) (written : List Reply) : Prop :=
  ∀ i reply, written[i]? = some reply →
    ∃ item, past[i]? = some item ∧ Replies sent handled n (past.take i) item reply

/-- The answer to a request was written, in the place of the message. -/
def Delivered (sent : List Request) (c : Client) (r : Request) (reply : Reply) : Prop :=
  ∃ i item, c.past[i]? = some item ∧ c.written[i]? = some reply ∧ passed? item = some r.incoming ∧
    (requestsOf sent r.client)[(passed (c.past.take i)).length]? = some r

section Lists

variable {sent sent' : List Request} {handled handled' : List (Request × Reply)} {n : Nat}
  {past : List Item} {written : List Reply} {item : Item} {reply : Reply}

lemma passed_concat (items : List Item) (item : Item) :
    passed (items ++ [item]) = passed items ++ (passed? item).toList := by
  rw [passed, List.filterMap_append]
  cases h : passed? item <;> simp [passed, h]

lemma requestsOf_concat (sent : List Request) (r : Request) :
    requestsOf (sent ++ [r]) r.client = requestsOf sent r.client ++ [r] := by
  simp [requestsOf, List.filter_append]

lemma requestsOf_append_other {more : List Request} (hn : ∀ r ∈ more, r.client ≠ n) :
    requestsOf (sent ++ more) n = requestsOf sent n := by
  have hmore : more.filter (fun r => r.client = n) = [] := by
    rw [List.filter_eq_nil_iff]
    simpa using hn
  rw [requestsOf, List.filter_append, hmore, List.append_nil]
  rfl

lemma mem_requestsOf {r : Request} : r ∈ requestsOf sent n ↔ r ∈ sent ∧ r.client = n := by
  simp [requestsOf]

lemma getElem?_of_append {α : Type} {as bs : List α} {a : α} {i : Nat} (h : as <+: bs)
    (ha : as[i]? = some a) : bs[i]? = some a := by
  obtain ⟨rest, rfl⟩ := h
  obtain ⟨hlt, -⟩ := List.getElem?_eq_some_iff.1 ha
  rw [List.getElem?_append_left hlt, ha]

lemma take_of_append {α : Type} {as bs : List α} {a : α} {i : Nat} (h : as <+: bs)
    (ha : as[i]? = some a) : bs.take i = as.take i := by
  obtain ⟨rest, rfl⟩ := h
  obtain ⟨hlt, -⟩ := List.getElem?_eq_some_iff.1 ha
  exact List.take_append_of_le_length (Nat.le_of_lt hlt)

lemma Replies.mono {before : List Item} (h : Replies sent handled n before item reply)
    (hs : sent <+: sent') (hh : handled <+: handled') :
    Replies sent' handled' n before item reply := by
  unfold Replies at h ⊢
  cases hv : item.verdict with
  | close last =>
    rw [hv] at h
    exact h
  | refuse refusal =>
    rw [hv] at h
    exact h
  | pass incoming =>
    rw [hv] at h
    obtain ⟨r, hr, hi, hplace⟩ := h
    exact ⟨r, hh.subset hr, hi, getElem?_of_append (hs.filter _) hplace⟩

lemma RepliesInOrder.mono (h : RepliesInOrder sent handled n past written)
    (hs : sent <+: sent') (hh : handled <+: handled') :
    RepliesInOrder sent' handled' n past written := by
  intro i reply hi
  obtain ⟨item, hitem, hreplies⟩ := h i reply hi
  exact ⟨item, hitem, hreplies.mono hs hh⟩

lemma RepliesInOrder.read (h : RepliesInOrder sent handled n past written) (item : Item) :
    RepliesInOrder sent handled n (past ++ [item]) written := by
  intro i reply hi
  obtain ⟨k, hk, hreplies⟩ := h i reply hi
  have hp : past <+: past ++ [item] := List.prefix_append _ _
  refine ⟨k, getElem?_of_append hp hk, ?_⟩
  rwa [take_of_append hp hk]

lemma RepliesInOrder.write (h : RepliesInOrder sent handled n past written)
    (hitem : past[written.length]? = some item)
    (hreply : Replies sent handled n (past.take written.length) item reply) :
    RepliesInOrder sent handled n past (written ++ [reply]) := by
  intro i r hi
  obtain hlt | rfl | hgt := Nat.lt_trichotomy i written.length
  · rw [List.getElem?_append_left hlt] at hi
    exact h i r hi
  · rw [List.getElem?_concat_length] at hi
    cases hi
    exact ⟨item, hitem, hreply⟩
  · rw [List.getElem?_eq_none (by simp; omega)] at hi
    cases hi

lemma Delivered.mono {c d : Client} {r : Request} (h : Delivered sent c r reply)
    (hs : sent <+: sent') (hpast : c.past <+: d.past) (hwritten : c.written <+: d.written) :
    Delivered sent' d r reply := by
  obtain ⟨i, item, hi, hw, hp, hplace⟩ := h
  refine ⟨i, item, getElem?_of_append hpast hi, getElem?_of_append hwritten hw, hp, ?_⟩
  rw [take_of_append hpast hi]
  exact getElem?_of_append (hs.filter _) hplace

end Lists

/-! ### One connection -/

/-- What holds of connection `n` at any time. -/
structure Client.Sound (sent : List Request) (handled : List (Request × Reply)) (n : Nat)
    (c : Client) : Prop where
  connection : c.connection = .connection n (UInt64.ofNat n)
  replies : RepliesInOrder sent handled n c.past c.written
  outstanding : ∃ waiting, waiting.length ≤ 1 ∧
    (requestsOf sent n).map Request.incoming = passed (c.past.take c.written.length) ++ waiting
  reading : c.activity = .reading → c.past.length = c.written.length ∧
    (requestsOf sent n).map Request.incoming = passed c.past
  waiting : ∀ channel, c.activity = .waiting channel → c.past.length = c.written.length + 1 ∧
    (requestsOf sent n).map Request.incoming = passed c.past ∧
    ∃ item r, c.past[c.written.length]? = some item ∧ passed? item = some r.incoming ∧
      (requestsOf sent n)[(passed (c.past.take c.written.length)).length]? = some r ∧
      r.channel = channel

/-- All that comes through a connection. -/
def Client.stream (c : Client) : List Item :=
  c.past ++ c.items

/-- The connection `d` is what became of `c`. -/
structure Client.Extends (c d : Client) : Prop where
  connection : d.connection = c.connection
  stream : d.stream = c.stream
  past : c.past <+: d.past
  written : c.written <+: d.written

namespace Client

variable {sent sent' : List Request} {handled handled' : List (Request × Reply)} {n : Nat}
  {c d : Client} {item : Item} {reply : Reply}

lemma Sound.mono (h : c.Sound sent handled n) (hs : sent <+: sent')
    (hn : requestsOf sent' n = requestsOf sent n) (hh : handled <+: handled') :
    c.Sound sent' handled' n := by
  refine ⟨h.connection, h.replies.mono hs hh, ?_, ?_, ?_⟩
  · rw [hn]
    exact h.outstanding
  · rw [hn]
    exact h.reading
  · rw [hn]
    exact h.waiting

lemma sound_open (items : List Item) (hn : requestsOf sent n = []) :
    (Client.open n items).Sound sent handled n := by
  refine ⟨rfl, ?_, ⟨[], by simp, ?_⟩, ?_, nofun⟩
  · intro i reply hi
    cases hi
  · rw [hn]
    rfl
  · intro _
    rw [hn]
    exact ⟨rfl, rfl⟩

lemma Sound.close (h : c.Sound sent handled n) :
    Client.Sound sent handled n { c with activity := .closed } :=
  ⟨h.connection, h.replies, h.outstanding, nofun, nofun⟩

/-- A connection that reads an item and closes without a reply. -/
lemma Sound.drop (h : c.Sound sent handled n) (hr : c.activity = .reading) (item : Item)
    (items : List Item) :
    Client.Sound sent handled n ⟨c.connection, c.past ++ [item], items, .closed, c.written⟩ := by
  obtain ⟨hlength, hall⟩ := h.reading hr
  refine ⟨h.connection, h.replies.read item, ⟨[], by simp, ?_⟩, nofun, nofun⟩
  rw [← hlength, List.take_left, List.append_nil]
  exact hall

/-- A connection that reads an item and replies to it on its own. -/
lemma Sound.write (h : c.Sound sent handled n) (hr : c.activity = .reading)
    (hp : passed? item = none) (hreply : Replies sent handled n c.past item reply)
    {activity : Activity} (ha : ∀ channel, activity ≠ .waiting channel) (items : List Item) :
    Client.Sound sent handled n
      ⟨c.connection, c.past ++ [item], items, activity, c.written ++ [reply]⟩ := by
  obtain ⟨hlength, hall⟩ := h.reading hr
  have hpassed : passed (c.past ++ [item]) = passed c.past := by
    rw [passed_concat, hp, Option.toList_none, List.append_nil]
  have hlengths : (c.past ++ [item]).length = (c.written ++ [reply]).length := by
    rw [List.length_append, List.length_append, hlength]
    rfl
  refine ⟨h.connection, ?_, ⟨[], by simp, ?_⟩, ?_, fun channel hw => absurd hw (ha channel)⟩
  · refine RepliesInOrder.write (h.replies.read item) (show _ = some item from ?_) ?_
    · rw [← hlength, List.getElem?_concat_length]
    · rw [← hlength, List.take_left]
      exact hreply
  · dsimp only
    rw [← hlengths, List.take_length, hpassed, List.append_nil]
    exact hall
  · intro _
    refine ⟨hlengths, ?_⟩
    dsimp only
    rw [hpassed]
    exact hall

/-- A connection that reads an item and sends it as the request `r`. -/
lemma Sound.send {r : Request} (h : c.Sound sent handled r.client) (hr : c.activity = .reading)
    (hp : passed? item = some r.incoming) (items : List Item) :
    Client.Sound (sent ++ [r]) handled r.client
      ⟨c.connection, c.past ++ [item], items, .waiting r.channel, c.written⟩ := by
  obtain ⟨hlength, hall⟩ := h.reading hr
  have hreplies := (h.replies.read item).mono (List.prefix_append sent [r]) List.prefix_rfl
  have hsent : (requestsOf (sent ++ [r]) r.client).map Request.incoming =
      passed c.past ++ [r.incoming] := by
    rw [requestsOf_concat, List.map_append, hall]
    rfl
  have hpassed : passed (c.past ++ [item]) = passed c.past ++ [r.incoming] := by
    rw [passed_concat, hp]
    rfl
  refine ⟨h.connection, hreplies, ⟨[r.incoming], Nat.le_refl 1, ?_⟩, nofun, ?_⟩
  · rw [← hlength, List.take_left]
    exact hsent
  · intro channel hw
    refine ⟨by rw [← hlength, List.length_append]; rfl, hsent.trans hpassed.symm, item, r, ?_, hp, ?_,
      Activity.waiting.inj hw⟩
    · rw [← hlength, List.getElem?_concat_length]
    · rw [← hlength, List.take_left, ← hall, List.length_map, requestsOf_concat,
        List.getElem?_concat_length]

/-- A connection that gets the answer to the request it waits for. -/
lemma Sound.receive {r : Request} (h : c.Sound sent handled n) (hw : c.activity = .waiting r.channel)
    (hr : (r, reply) ∈ handled) (hown : ∀ q ∈ sent, q.channel = r.channel → q = r) :
    Client.Sound sent handled n { c with activity := .reading, written := c.written ++ [reply] } ∧
      Delivered sent { c with activity := .reading, written := c.written ++ [reply] } r reply := by
  obtain ⟨hlength, hall, item, q, hitem, hp, hplace, hq⟩ := h.waiting r.channel hw
  obtain ⟨hsent, rfl⟩ := mem_requestsOf.1 (List.mem_of_getElem? hplace)
  obtain rfl := hown q hsent hq
  have hlengths : c.past.length = (c.written ++ [reply]).length := by
    rw [hlength, List.length_append]
    rfl
  have hreply : Replies sent handled q.client (c.past.take c.written.length) item reply := by
    unfold Replies
    unfold passed? at hp
    split at hp
    · next incoming hv =>
      rw [hv]
      exact ⟨q, hr, (Option.some.inj hp).symm, hplace⟩
    · cases hp
  refine ⟨⟨h.connection, h.replies.write hitem hreply, ⟨[], by simp, ?_⟩, ?_, nofun⟩, ?_⟩
  · dsimp only
    rw [← hlengths, List.take_length, List.append_nil]
    exact hall
  · intro _
    exact ⟨hlengths, hall⟩
  · exact ⟨c.written.length, item, hitem, List.getElem?_concat_length, hp, hplace⟩

variable {s : System}

lemma stream_read {items : List Item} (hi : c.items = item :: items) {activity : Activity}
    {written : List Reply} :
    Client.stream ⟨c.connection, c.past ++ [item], items, activity, written⟩ = c.stream := by
  rw [stream, stream, hi, List.append_assoc]
  rfl

lemma Goes.extends (h : c.Goes s d) : c.Extends d := by
  cases h with
  | finish | giveUp => exact ⟨rfl, rfl, List.prefix_rfl, List.prefix_rfl⟩
  | close _ hi | refuse _ hi =>
    exact ⟨rfl, stream_read hi, List.prefix_append _ _, List.prefix_append _ _⟩
  | turnAway _ hi => exact ⟨rfl, stream_read hi, List.prefix_append _ _, List.prefix_rfl⟩

lemma Goes.sound (h : c.Goes s d) (hs : c.Sound sent handled n) : d.Sound sent handled n := by
  cases h with
  | finish | giveUp => exact hs.close
  | turnAway hr => exact hs.drop hr _ _
  | @close item items last hr hi hv =>
    cases last with
    | none =>
      rw [Option.toList_none, List.append_nil]
      exact hs.drop hr item items
    | some reply =>
      exact hs.write hr (by rw [passed?, hv]) (by rw [Replies, hv]) (by nofun) items
  | refuse hr hi hv =>
    exact hs.write hr (by rw [passed?, hv]) (by rw [Replies, hv]) (by nofun) _

/-- A connection that waits goes on only when nothing will come. -/
lemma Goes.unanswered {channel : Nat} (h : c.Goes s d) (hw : c.activity = .waiting channel) :
    s.answers.lookup channel = none ∧ s.awaits channel = false := by
  cases h with
  | finish hc | close hc | refuse hc | turnAway hc =>
    rw [hw] at hc
    cases hc
  | giveUp hc ha hs =>
    rw [hw] at hc
    cases hc
    exact ⟨ha, hs⟩

end Client

end TransactionEngine.Session
