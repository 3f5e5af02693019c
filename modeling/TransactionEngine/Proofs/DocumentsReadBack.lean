import Mathlib.Data.List.Forall2
import TransactionEngine.Json.Record
import TransactionEngine.Proofs.ScalarsReadBack

/-!
# Compact forms are read back

Readers that fill lists and records straight from text take the compact form of a document for what
they take its parts for.
-/

namespace TransactionEngine.Json

/-- The compact form of a document in bytes. -/
def bytes (j : Json) : Bytes :=
  spelled j.chars

namespace Reader

variable {α β : Type} {b : UInt8} {bs rest : Bytes} {n : Nat}

lemma ne_of_isDigit (hb : isDigit b = true) {c : Char} (hc : isDigit c.toUInt8 = false) :
    b ≠ c.toUInt8 := by
  rintro rfl
  rw [hb] at hc
  cases hc

lemma not_isBlank_of_isDigit (hb : isDigit b = true) : isBlank b = false := by
  have hne (c : Char) (hc : isDigit c.toUInt8 = false) : (b = c.toUInt8) = False :=
    eq_false (ne_of_isDigit hb hc)
  simp [isBlank, hne ' ' rfl, hne '\t' rfl, hne '\n' rfl, hne '\r' rfl]

/-- A compact form does not start with a blank, nor with what ends a list. -/
lemma exists_bytes_eq {j : Json} (h : j.Exact) :
    ∃ b bs, j.bytes = b :: bs ∧ isBlank b = false ∧ b ≠ ']'.toUInt8 ∧
      (b = 'n'.toUInt8 → j = .null) := by
  cases h with
  | null => exact ⟨_, _, rfl, rfl, by decide, fun _ => rfl⟩
  | bool b => cases b <;> exact ⟨_, _, rfl, rfl, by decide, fun h => absurd h (by decide)⟩
  | int n =>
    cases n with
    | ofNat n =>
      obtain ⟨d, ds, hd, hdigit⟩ := exists_toDigits_eq_cons n
      obtain ⟨hbyte, hdigit, -⟩ := digit_spelled hdigit
      refine ⟨d.toUInt8, spelled ds, ?_, not_isBlank_of_isDigit hdigit, ne_of_isDigit hdigit rfl,
        fun h => absurd h (ne_of_isDigit hdigit rfl)⟩
      rw [bytes, chars, intChars, hd, spelled_cons, hbyte]
      rfl
    | negSucc n => exact ⟨_, _, rfl, rfl, by decide, fun h => absurd h (by decide)⟩
  | string s => exact ⟨_, _, rfl, rfl, by decide, fun h => absurd h (by decide)⟩
  | array h => exact ⟨_, _, rfl, rfl, by decide, fun h => absurd h (by decide)⟩
  | object h => exact ⟨_, _, rfl, rfl, by decide, fun h => absurd h (by decide)⟩

lemma blanks_cons (hb : isBlank b = false) (bs : Bytes) : blanks (b :: bs) = 0 := by
  simp [blanks, hb]

lemma closed_cons (h : b = ','.toUInt8 ∨ b = ']'.toUInt8 ∨ b = '\x7d'.toUInt8) :
    Closed (b :: rest) := by
  rintro _ ⟨⟩
  exact h

lemma byFirst_cons (hb : isBlank b = false) (read : UInt8 → Reader α) (bs : Bytes) :
    byFirst read (b :: bs) = (read b bs).map fun (a, m) => (a, m + 1) := by
  rw [byFirst, blanks_cons hb]
  simp only [List.drop_zero, Nat.zero_add, Nat.add_comm 1]

/-- The reader takes the compact form of the document for `a`, wherever that form stands. -/
def Takes (reader : Reader α) (j : Json) (a : α) : Prop :=
  ∀ rest, Closed rest → reader (j.bytes ++ rest) = .ok (a, j.bytes.length)

variable {j : Json} {a : α} {item : Reader α}

lemma Takes.map (h : Takes item j a) (f : α → β) :
    Takes (fun bs => do let (x, n) ← item bs; pure (f x, n)) j (f a) := by
  intro rest hrest
  dsimp only
  rw [h rest hrest]
  rfl

lemma bytes_string (s : String) :
    (Json.string s).bytes =
      '"'.toUInt8 :: (spelled (s.toList.flatMap escapedChar) ++ ['"'.toUInt8]) := by
  rw [bytes, chars, stringChars, List.cons_append, spelled_cons, spelled_append]
  rfl

theorem takes_text (wanted s : String) : Takes (text wanted) (.string s) s := by
  intro rest _
  rw [bytes_string, List.cons_append, List.append_assoc, List.singleton_append, text,
    byFirst_cons rfl, if_pos rfl, string_escaped, List.length_cons, List.length_append]
  rfl

lemma scalarFrom_digit (hb : isDigit b = true) (rest : Bytes) :
    scalarFrom b rest = (number true (b :: rest)).map fun (j, n) => (j, n - 1) := by
  rw [scalarFrom, if_neg (ne_of_isDigit hb rfl), if_neg (ne_of_isDigit hb rfl),
    if_neg (ne_of_isDigit hb rfl), if_neg (ne_of_isDigit hb rfl), if_pos hb]

theorem takes_unsigned {limit : Nat} (hn : n < limit) (hlimit : limit ≤ UInt64.size)
    (wanted : String) : Takes (unsigned limit wanted) (.int n) n := by
  intro rest hrest
  have hmax : n ≤ maxUnsigned := by rw [maxUnsigned]; omega
  have hnumber := number_toDigits hmax hrest
  change unsigned limit wanted (spelled (Nat.toDigits 10 n) ++ rest) =
    .ok (n, (spelled (Nat.toDigits 10 n)).length)
  obtain ⟨d, ds, hd, hdigit⟩ := exists_toDigits_eq_cons n
  obtain ⟨hbyte, hdigit, -⟩ := digit_spelled hdigit
  rw [hd, spelled_cons, hbyte, List.singleton_append] at hnumber ⊢
  rw [List.cons_append] at hnumber ⊢
  rw [unsigned, byFirst_cons (not_isBlank_of_isDigit hdigit), hdigit, Bool.or_true, if_pos rfl,
    scalarFrom_digit hdigit, hnumber]
  change (if 0 ≤ (n : Int) ∧ (n : Int) < limit then _ else _ : Except Fault _).map _ = _
  rw [if_pos ⟨by omega, by omega⟩]
  rfl

theorem takes_null (item : Reader α) : Takes (optional item) .null none := by
  intro rest _
  rfl

theorem Takes.some (h : Takes item j a) (hj : j.Exact) (hne : j ≠ .null) :
    Takes (optional item) j (some a) := by
  intro rest hrest
  obtain ⟨b, bs, hb, hblank, -, hnull⟩ := exists_bytes_eq hj
  have hread := h rest hrest
  rw [hb] at hread ⊢
  rw [List.cons_append] at hread ⊢
  rw [optional, blanks_cons hblank, hread]
  exact if_neg fun h => hne (hnull h)

lemma bytes_array (items : List Json) :
    (Json.array items).bytes = '['.toUInt8 :: (spelled (itemChars items) ++ [']'.toUInt8]) := by
  rw [bytes, chars, List.cons_append, spelled_cons, spelled_append]
  rfl

lemma spelled_itemChars_singleton (j : Json) : spelled (itemChars [j]) = j.bytes := by
  rw [itemChars, bytes]

lemma spelled_itemChars_cons (j k : Json) (js : List Json) :
    spelled (itemChars (j :: k :: js)) =
      j.bytes ++ ','.toUInt8 :: spelled (itemChars (k :: js)) := by
  rw [itemChars, spelled_append, spelled_cons, bytes]
  · rfl
  · exact List.cons_ne_nil k js

lemma exists_spelled_itemChars_eq {j : Json} (hj : j.Exact) (js : List Json) :
    ∃ b bs, spelled (itemChars (j :: js)) = b :: bs ∧ isBlank b = false ∧ b ≠ ']'.toUInt8 := by
  obtain ⟨b, bs, hb, hblank, hend, -⟩ := exists_bytes_eq hj
  rw [itemChars_cons, spelled_append, ← bytes, hb]
  exact ⟨b, _, rfl, hblank, hend⟩

lemma drop_blanks (h : blanks rest = 0) :
    (bs ++ rest).drop (bs.length + blanks ((bs ++ rest).drop bs.length)) = rest := by
  rw [List.drop_left, h, Nat.add_zero, List.drop_left]

lemma items_last (h : item (bs ++ ']'.toUInt8 :: rest) = .ok (a, bs.length)) :
    items item (bs ++ ']'.toUInt8 :: rest) = .ok ([a], bs.length + 1) := by
  have hblanks : blanks (']'.toUInt8 :: rest) = 0 := blanks_cons rfl rest
  rw [items, h]
  dsimp only [bind, Except.bind]
  split
  · next heq => rw [drop_blanks hblanks] at heq; cases heq
  · next c left heq =>
    rw [drop_blanks hblanks] at heq
    cases heq
    rw [if_pos rfl, List.drop_left, hblanks]
    rfl

lemma items_next {as : List α} (h : item (bs ++ ','.toUInt8 :: b :: rest) = .ok (a, bs.length))
    (hb : isBlank b = false) (hend : b ≠ ']'.toUInt8)
    (hrest : items item (b :: rest) = .ok (as, n)) :
    items item (bs ++ ','.toUInt8 :: b :: rest) = .ok (a :: as, bs.length + 1 + n) := by
  have hblanks : blanks (','.toUInt8 :: b :: rest) = 0 := blanks_cons rfl _
  rw [items, h]
  dsimp only [bind, Except.bind]
  split
  · next heq => rw [drop_blanks hblanks] at heq; cases heq
  · next c left heq =>
    rw [drop_blanks hblanks] at heq
    cases heq
    rw [if_neg (by decide), if_pos rfl, List.drop_left, hblanks]
    simp only [blanks_cons hb, List.drop_zero, if_neg hend, hrest]
    rfl

lemma items_listed {js : List Json} {as : List α} (h : Takes item j a)
    (hrest : List.Forall₂ (Takes item) js as) (hexact : ∀ j ∈ js, j.Exact) (rest : Bytes) :
    items item (spelled (itemChars (j :: js)) ++ ']'.toUInt8 :: rest) =
      .ok (a :: as, (spelled (itemChars (j :: js))).length + 1) := by
  induction hrest generalizing j a with
  | nil =>
    rw [spelled_itemChars_singleton]
    exact items_last (h _ (closed_cons (.inr (.inl rfl))))
  | @cons k b js as hk hrest ih =>
    rw [List.forall_mem_cons] at hexact
    have hitems := ih hk hexact.2
    obtain ⟨c, cs, hc, hblank, hend⟩ := exists_spelled_itemChars_eq hexact.1 js
    rw [hc, List.cons_append] at hitems
    rw [spelled_itemChars_cons, hc, List.append_assoc, List.cons_append, List.cons_append,
      items_next (h _ (closed_cons (.inl rfl))) hblank hend hitems, List.length_append,
      List.length_cons, Nat.add_assoc, Nat.add_assoc, Nat.add_comm 1]
    rfl

theorem takes_array {js : List Json} {as : List α} (h : List.Forall₂ (Takes item) js as)
    (hexact : ∀ j ∈ js, j.Exact) : Takes (sequence item) (.array js) as := by
  intro rest _
  rw [bytes_array, List.cons_append, List.append_assoc, List.singleton_append, sequence,
    byFirst_cons rfl, if_pos rfl]
  cases h with
  | nil => rfl
  | @cons j a js as hj h =>
    rw [List.forall_mem_cons] at hexact
    have hitems := items_listed hj h hexact.2 rest
    obtain ⟨c, cs, hc, hblank, hend⟩ := exists_spelled_itemChars_eq hexact.1 js
    rw [hc, List.cons_append] at hitems ⊢
    have hlist : list item (c :: (cs ++ ']'.toUInt8 :: rest)) =
        .ok (a :: as, (c :: cs).length + 1) := by
      rw [list, blanks_cons hblank]
      change (if c = ']'.toUInt8 then _ else _) = _
      rw [if_neg hend, hitems]
      change Except.ok (a :: as, 0 + _) = _
      rw [Nat.zero_add]
    rw [hlist, List.cons_append]
    simp only [List.length_cons, List.length_append]
    rfl

/-! ### Records -/

variable {σ : Type} {r : Record σ} {s t : σ}

/-- Reading documents under keys one after the other takes a record from one state to another. -/
inductive Record.Fills (r : Record σ) : σ → List (String × Json) → σ → Prop
  | nil (s : σ) : Fills r s [] s
  | cons {s t u : σ} {key : String} {j : Json} {members : List (String × Json)}
    {read : σ → Reader σ} (hfield : r.fields.lookup key = some read)
    (hnew : r.holds s key = false) (hread : Takes (read s) j t) (hrest : Fills r t members u) :
    Fills r s ((key, j) :: members) u

lemma field_known {key : String} {read : σ → Reader σ} (hfield : r.fields.lookup key = some read)
    (hnew : r.holds s key = false) (hread : read s bs = .ok (t, n)) :
    r.field s key (':'.toUInt8 :: bs) = .ok (t, n + 1) := by
  have hcolon : colon (':'.toUInt8 :: bs) = .ok ((), 1) := by
    rw [colon, blanks_cons rfl]
    rfl
  rw [Record.field, hfield]
  dsimp only
  rw [hnew, if_neg (by decide), hcolon]
  dsimp only [bind, Except.bind]
  rw [List.drop_succ_cons, List.drop_zero, hread, Nat.add_comm n]
  rfl

variable {field : σ → String → Reader σ} {key : String} {k m : Nat}

lemma fields_last (hkey : string (bs ++ '\x7d'.toUInt8 :: rest) = .ok (key, k))
    (hfield : field s key ((bs ++ '\x7d'.toUInt8 :: rest).drop k) = .ok (t, m))
    (hlength : k + m = bs.length) :
    fields field s (bs ++ '\x7d'.toUInt8 :: rest) = .ok (t, bs.length + 1) := by
  have hblanks : blanks ('\x7d'.toUInt8 :: rest) = 0 := blanks_cons rfl rest
  rw [fields, hkey]
  dsimp only [bind, Except.bind]
  rw [hfield]
  dsimp only
  rw [hlength]
  split
  · next heq => rw [drop_blanks hblanks] at heq; cases heq
  · next c left heq =>
    rw [drop_blanks hblanks] at heq
    cases heq
    rw [if_pos rfl, List.drop_left, hblanks]
    rfl

lemma fields_next {u : σ} (hkey : string (bs ++ ','.toUInt8 :: '"'.toUInt8 :: rest) = .ok (key, k))
    (hfield : field s key ((bs ++ ','.toUInt8 :: '"'.toUInt8 :: rest).drop k) = .ok (t, m))
    (hlength : k + m = bs.length) (hrest : fields field t rest = .ok (u, n)) :
    fields field s (bs ++ ','.toUInt8 :: '"'.toUInt8 :: rest) = .ok (u, bs.length + 2 + n) := by
  have hblanks : blanks (','.toUInt8 :: '"'.toUInt8 :: rest) = 0 := blanks_cons rfl _
  rw [fields, hkey]
  dsimp only [bind, Except.bind]
  rw [hfield]
  dsimp only
  rw [hlength]
  split
  · next heq => rw [drop_blanks hblanks] at heq; cases heq
  · next c left heq =>
    rw [drop_blanks hblanks] at heq
    cases heq
    rw [if_neg (by decide), if_pos rfl, List.drop_left, hblanks]
    have hquote : blanks ('"'.toUInt8 :: rest) = 0 := blanks_cons rfl rest
    simp only [hquote, List.drop_zero, List.drop_succ_cons, if_true, hrest]
    rfl

/-- A key from after its opening quote, and its value. -/
def memberBytes (key : String) (j : Json) : Bytes :=
  spelled (key.toList.flatMap escapedChar) ++ '"'.toUInt8 :: ':'.toUInt8 :: j.bytes

lemma spelled_fieldChars_singleton (key : String) (j : Json) :
    spelled (fieldChars [(key, j)]) = '"'.toUInt8 :: memberBytes key j := by
  rw [fieldChars, stringChars]
  simp only [List.cons_append, List.append_assoc, List.nil_append, spelled_cons, spelled_append]
  rfl

lemma spelled_fieldChars_cons (key : String) (j : Json) (f : String × Json)
    (fs : List (String × Json)) : spelled (fieldChars ((key, j) :: f :: fs)) =
      '"'.toUInt8 :: (memberBytes key j ++ ','.toUInt8 :: spelled (fieldChars (f :: fs))) := by
  rw [fieldChars, stringChars]
  · simp only [List.cons_append, List.append_assoc, List.nil_append, spelled_cons, spelled_append]
    rw [memberBytes, List.append_assoc]
    rfl
  · exact List.cons_ne_nil f fs

/-- A key is read up to its closing quote, and the value of a known key behind that. -/
lemma exists_read_member {j : Json} {read : σ → Reader σ}
    (hfield : r.fields.lookup key = some read) (hnew : r.holds s key = false)
    (hread : Takes (read s) j t) (hrest : Closed rest) :
    ∃ k m, string (memberBytes key j ++ rest) = .ok (key, k) ∧
      r.field s key ((memberBytes key j ++ rest).drop k) = .ok (t, m) ∧
      k + m = (memberBytes key j).length := by
  have hbytes : memberBytes key j ++ rest =
      spelled (key.toList.flatMap escapedChar) ++
        '"'.toUInt8 :: ':'.toUInt8 :: (j.bytes ++ rest) := by
    rw [memberBytes, List.append_assoc]
    rfl
  refine ⟨(spelled (key.toList.flatMap escapedChar)).length + 1, j.bytes.length + 1, ?_, ?_, ?_⟩
  · rw [hbytes]
    exact string_escaped key _
  · rw [hbytes, ← List.drop_drop, List.drop_left]
    exact field_known hfield hnew (hread rest hrest)
  · rw [memberBytes, List.length_append]
    simp only [List.length_cons]
    omega

lemma fields_filled {f : String × Json} {fs : List (String × Json)}
    (h : Record.Fills r s (f :: fs) t) (rest : Bytes) :
    ∃ body, spelled (fieldChars (f :: fs)) = '"'.toUInt8 :: body ∧
      fields r.field s (body ++ '\x7d'.toUInt8 :: rest) = .ok (t, body.length + 1) := by
  induction fs generalizing f s with
  | nil =>
    cases h with
    | @cons _ _ _ key j _ read hfield hnew hread hrest =>
      cases hrest
      obtain ⟨k, m, hkey, hvalue, hlength⟩ :=
        exists_read_member hfield hnew hread (closed_cons (.inr (.inr rfl)))
      exact ⟨memberBytes key j, spelled_fieldChars_singleton key j,
        fields_last hkey hvalue hlength⟩
  | cons g gs ih =>
    cases h with
    | @cons _ _ _ key j _ read hfield hnew hread hrest =>
      obtain ⟨body, hbody, hfields⟩ := ih hrest
      obtain ⟨k, m, hkey, hvalue, hlength⟩ :=
        exists_read_member hfield hnew hread (closed_cons (.inl rfl))
      refine ⟨memberBytes key j ++ ','.toUInt8 :: '"'.toUInt8 :: body, ?_, ?_⟩
      · rw [spelled_fieldChars_cons, hbody]
      · rw [List.append_assoc, List.cons_append, List.cons_append,
          fields_next hkey hvalue hlength hfields, List.length_append]
        simp only [List.length_cons, Nat.add_assoc, Nat.add_comm 2]

lemma bytes_object (fields : List (String × Json)) :
    (Json.object fields).bytes =
      '\x7b'.toUInt8 :: (spelled (fieldChars fields) ++ ['\x7d'.toUInt8]) := by
  rw [bytes, chars, List.cons_append, spelled_cons, spelled_append]
  rfl

lemma object_filled {members : List (String × Json)} (h : Record.Fills r s members t)
    (rest : Bytes) : object r.field s (spelled (fieldChars members) ++ '\x7d'.toUInt8 :: rest) =
      .ok (t, (spelled (fieldChars members)).length + 1) := by
  cases members with
  | nil =>
    cases h
    rfl
  | cons f fs =>
    obtain ⟨body, hbody, hfields⟩ := fields_filled h rest
    rw [hbody, List.cons_append, object, blanks_cons rfl]
    change (fields r.field s _ >>= _) = _
    rw [hfields]
    change Except.ok (t, 0 + 1 + (body.length + 1)) = _
    rw [Nat.zero_add, Nat.add_comm 1]
    rfl

/-- An object is read as the record that its members fill, if these are all that is required. -/
theorem takes_object {members : List (String × Json)} (h : Record.Fills r s members t)
    (hall : ∀ name ∈ r.required, r.holds t name = true) :
    Takes (r.read s) (.object members) t := by
  intro rest _
  have hmissing : (r.required.find? fun name => !r.holds t name) = none := by
    simpa using hall
  rw [bytes_object, List.cons_append, List.append_assoc, List.singleton_append, Record.read,
    byFirst_cons rfl, if_neg (by decide), if_pos rfl, object_filled h]
  dsimp only [bind, Except.bind]
  rw [hmissing, List.length_cons, List.length_append]
  rfl

end Reader

/-- A text that is the compact form of a document and nothing else is read as a whole. -/
theorem readWhole_bytes {α : Type} {reader : Reader α} {j : Json} {a : α}
    (h : reader.Takes j a) : readWhole reader j.bytes = .ok a := by
  have hread := h [] Reader.closed_nil
  rw [List.append_nil] at hread
  rw [readWhole, hread]
  simp only [bind, Except.bind, List.drop_eq_nil_of_le (Nat.le_add_right j.bytes.length _)]
  rfl

end TransactionEngine.Json
