import TransactionEngine.Json.Document
import TransactionEngine.Proofs.CompactDocuments
import TransactionEngine.Proofs.TextBytes

/-!
# Texts and numbers are read back

The escaped form of a text and the decimal form of a number, in bytes, are read as what they were
written for. A text ends at its closing quote; a number ends where the next byte closes an item.
-/

namespace TransactionEngine.Json

/-- Characters in bytes, one behind the other. -/
def spelled (cs : List Char) : Bytes :=
  cs.flatMap String.utf8EncodeChar

@[simp] lemma spelled_nil : spelled [] = [] := rfl

@[simp] lemma spelled_cons (c : Char) (cs : List Char) :
    spelled (c :: cs) = String.utf8EncodeChar c ++ spelled cs := rfl

@[simp] lemma spelled_append (cs ds : List Char) :
    spelled (cs ++ ds) = spelled cs ++ spelled ds :=
  List.flatMap_append

lemma bytes_ofList (cs : List Char) : Text.bytes (String.ofList cs) = spelled cs := by
  rw [Text.bytes_eq_flatMap, String.toList_ofList, spelled]

namespace Reader

variable {bs cs more rest : Bytes} {c : Char} {n : Nat}

/-- The byte stands for itself inside of a text. -/
def IsOrdinary (b : UInt8) : Prop :=
  b ≠ '"'.toUInt8 ∧ b ≠ '\\'.toUInt8 ∧ ¬b < 0x20

lemma stringBytes_ordinary {b : UInt8} (hb : IsOrdinary b) (h : stringBytes bs = .ok (cs, n)) :
    stringBytes (b :: bs) = .ok (b :: cs, n + 1) := by
  rw [stringBytes, if_neg hb.1, if_neg hb.2.1, if_neg hb.2.2, h]
  rfl

lemma stringBytes_append (hcs : ∀ b ∈ cs, IsOrdinary b) (h : stringBytes rest = .ok (more, n)) :
    stringBytes (cs ++ rest) = .ok (cs ++ more, cs.length + n) := by
  induction cs with
  | nil => simpa using h
  | cons b cs ih =>
    rw [List.forall_mem_cons] at hcs
    rw [List.cons_append, stringBytes_ordinary hcs.1 (ih hcs.2), List.length_cons,
      Nat.add_right_comm]
    rfl

lemma stringBytes_escape (he : escape (bs ++ rest) = .ok (cs, bs.length))
    (h : stringBytes rest = .ok (more, n)) :
    stringBytes ('\\'.toUInt8 :: (bs ++ rest)) = .ok (cs ++ more, bs.length + 1 + n) := by
  rw [stringBytes, if_neg (by decide), if_pos rfl, he]
  change (stringBytes ((bs ++ rest).drop bs.length) >>= _) = _
  rw [List.drop_left, h, Nat.add_comm bs.length]
  rfl

lemma stringBytes_quote (rest : Bytes) : stringBytes ('"'.toUInt8 :: rest) = .ok ([], 1) := by
  rw [stringBytes, if_pos rfl]

lemma isOrdinary_of_mem (hquote : c ≠ '"') (hslash : c ≠ '\\') (hc : ¬c.toNat < 0x20) {b : UInt8}
    (hb : b ∈ String.utf8EncodeChar c) : IsOrdinary b := by
  have hne (d : Char) (hd : d.toUInt8 < 0x80) (hd' : Char.ofNat d.toUInt8.toNat = d) (h : c ≠ d) :
      b ≠ d.toUInt8 := by
    rintro rfl
    exact h ((Text.eq_of_mem_utf8EncodeChar hb hd).trans hd')
  refine ⟨hne '"' (by decide) (by decide) hquote, hne '\\' (by decide) (by decide) hslash, ?_⟩
  intro hlt
  have hlt : b.toNat < 0x20 := UInt8.lt_iff_toNat_lt.1 hlt
  rcases Text.mem_utf8EncodeChar hb with ⟨-, heq⟩ | ⟨-, hle, -⟩ <;> omega

lemma hexValue?_digitChar : ∀ k < 16,
    String.utf8EncodeChar k.digitChar = [k.digitChar.toUInt8] ∧
      hexValue? k.digitChar.toUInt8 = some k := by
  decide

lemma length_spelled_hex4 (n : Nat) : (spelled (Text.hex4 n)).length = 4 := by
  have hdigit (k : Nat) := (hexValue?_digitChar (k % 16) (Nat.mod_lt k (by omega))).1
  simp [Text.hex4, hdigit]

lemma fourHex_hex4 (hn : n < 0x10000) (rest : Bytes) :
    fourHex (spelled (Text.hex4 n) ++ rest) = .ok n := by
  have hdigit (k : Nat) := hexValue?_digitChar (k % 16) (Nat.mod_lt k (by omega))
  simp only [Text.hex4, List.map_cons, List.map_nil, spelled_cons, spelled_nil, (hdigit _).1,
    List.cons_append, List.nil_append, fourHex, (hdigit _).2, Except.ok.injEq]
  omega

/-- Control characters are no surrogates, so four digits are enough for them. -/
lemma escape_hex4 (hn : n < 0x20) (rest : Bytes) :
    escape (spelled ('u' :: Text.hex4 n) ++ rest) =
      .ok (String.utf8EncodeChar (Char.ofNat n), (spelled ('u' :: Text.hex4 n)).length) := by
  have hlow : isLowSurrogate n = false := by
    rw [isLowSurrogate, decide_eq_false (by omega), Bool.false_and]
  have hhigh : isHighSurrogate n = false := by
    rw [isHighSurrogate, decide_eq_false (by omega), Bool.false_and]
  change (codePoint (spelled (Text.hex4 n) ++ rest) >>= _) = _
  rw [codePoint, fourHex_hex4 (by omega)]
  change ((if isLowSurrogate n then _ else _) >>= _) = _
  rw [hlow, hhigh, spelled_cons, List.length_append, length_spelled_hex4]
  rfl

lemma stringBytes_escapedChar (c : Char) (h : stringBytes rest = .ok (more, n)) :
    stringBytes (spelled (escapedChar c) ++ rest) =
      .ok (String.utf8EncodeChar c ++ more, (spelled (escapedChar c)).length + n) := by
  unfold escapedChar
  split_ifs with h₁ h₂ h₃ h₄ h₅ h₆ h₇ h₈
  · rw [h₁]; exact stringBytes_escape rfl h
  · rw [h₂]; exact stringBytes_escape rfl h
  · rw [h₃]; exact stringBytes_escape rfl h
  · rw [h₄]; exact stringBytes_escape rfl h
  · rw [h₅]; exact stringBytes_escape rfl h
  · rw [h₆]; exact stringBytes_escape rfl h
  · rw [h₇]; exact stringBytes_escape rfl h
  · have he := escape_hex4 h₈ rest
    rw [Char.ofNat_toNat] at he
    exact stringBytes_escape he h
  · rw [spelled_cons, spelled_nil, List.append_nil]
    exact stringBytes_append (fun b hb => isOrdinary_of_mem h₁ h₂ h₈ hb) h

lemma stringBytes_escaped (cs : List Char) (rest : Bytes) :
    stringBytes (spelled (cs.flatMap escapedChar) ++ '"'.toUInt8 :: rest) =
      .ok (spelled cs, (spelled (cs.flatMap escapedChar)).length + 1) := by
  induction cs with
  | nil => exact stringBytes_quote rest
  | cons c cs ih =>
    rw [List.flatMap_cons, spelled_append, List.append_assoc, stringBytes_escapedChar c ih,
      List.length_append, Nat.add_assoc, spelled_cons]

/-- A text is read back from its escaped form and the quote behind it. -/
theorem string_escaped (s : String) (rest : Bytes) :
    string (spelled (s.toList.flatMap escapedChar) ++ '"'.toUInt8 :: rest) =
      .ok (s, (spelled (s.toList.flatMap escapedChar)).length + 1) := by
  have hs : spelled s.toList = Text.bytes s := (Text.bytes_eq_flatMap s).symm
  rw [string, stringBytes_escaped]
  dsimp only [bind, Except.bind]
  rw [hs, Text.ofBytes?_bytes]
  rfl

/-! ### Numbers -/

/-- The text is at its end, or goes on with what may follow an item of a list or of an object. -/
def Closed (bs : Bytes) : Prop :=
  ∀ b ∈ bs.head?, b = ','.toUInt8 ∨ b = ']'.toUInt8 ∨ b = '\x7d'.toUInt8

lemma closed_nil : Closed [] := nofun

lemma Closed.not_digit (h : Closed rest) : startsWithDigit rest = false := by
  cases rest with
  | nil => rfl
  | cons b rest => rcases h b rfl with rfl | rfl | rfl <;> rfl

lemma Closed.digitRun (h : Closed rest) : digitRun rest = 0 := by
  cases rest with
  | nil => rfl
  | cons b rest => rcases h b rfl with rfl | rfl | rfl <;> rfl

lemma Closed.afterDigits (h : Closed rest) (positive : Bool) (significand : Nat) (exponent : Int)
    (plain : Bytes → Except Fault Json) :
    afterDigits positive significand exponent plain rest = (plain rest).map (·, 0) := by
  cases rest with
  | nil => rfl
  | cons b rest => rcases h b rfl with rfl | rfl | rfl <;> rfl

lemma digit_spelled {d : Char} (hd : d.isDigit = true) :
    String.utf8EncodeChar d = [d.toUInt8] ∧ isDigit d.toUInt8 = true ∧
      digitValue d.toUInt8 = d.toNat - '0'.toNat := by
  have hall : ∀ k < 10,
      String.utf8EncodeChar (Char.ofNat (48 + k)) = [(Char.ofNat (48 + k)).toUInt8] ∧
      isDigit (Char.ofNat (48 + k)).toUInt8 = true ∧
      digitValue (Char.ofNat (48 + k)).toUInt8 = (Char.ofNat (48 + k)).toNat - '0'.toNat := by
    decide
  obtain ⟨hle, hge⟩ : 48 ≤ d.toNat ∧ d.toNat ≤ 57 := by
    simpa [Char.isDigit, UInt32.le_iff_toNat_le] using hd
  have hk := hall (d.toNat - 48) (by omega)
  rwa [Nat.add_sub_cancel' hle, Char.ofNat_toNat] at hk

variable {ds : List Char}

lemma length_spelled_digits (hds : ∀ d ∈ ds, d.isDigit = true) : (spelled ds).length = ds.length := by
  induction ds with
  | nil => rfl
  | cons d ds ih =>
    rw [List.forall_mem_cons] at hds
    rw [spelled_cons, (digit_spelled hds.1).1, List.length_append, ih hds.2, List.length_cons,
      Nat.add_comm]
    rfl

lemma le_ofDigitChars (ds : List Char) (n : Nat) : n ≤ Nat.ofDigitChars 10 ds n := by
  rw [Nat.ofDigitChars_eq_ofDigitChars_zero]
  have hle : n ≤ 10 ^ ds.length * n := Nat.le_mul_of_pos_left n (Nat.pow_pos (by decide))
  exact Nat.le_trans hle (Nat.le_add_right _ _)

lemma gather_digits {limit : Nat} (hds : ∀ d ∈ ds, d.isDigit = true)
    (hrest : startsWithDigit rest = false) (h : Nat.ofDigitChars 10 ds n ≤ limit) :
    gather limit n (spelled ds ++ rest) = (Nat.ofDigitChars 10 ds n, ds.length) := by
  induction ds generalizing n with
  | nil =>
    cases rest with
    | nil => rfl
    | cons b rest =>
      change isDigit b = false at hrest
      simp [gather, hrest]
  | cons d ds ih =>
    rw [List.forall_mem_cons] at hds
    obtain ⟨hbyte, hdigit, hvalue⟩ := digit_spelled hds.1
    rw [Nat.ofDigitChars_cons, Nat.mul_comm] at h ⊢
    rw [spelled_cons, hbyte, List.append_assoc, List.singleton_append, gather, hdigit, hvalue,
      ih hds.2 h]
    have hle := Nat.le_trans (le_ofDigitChars ds _) h
    rw [if_pos (by simpa using hle)]
    rfl

lemma head_toDigits_ne_zero (hn : 0 < n) : ∀ d ∈ (Nat.toDigits 10 n).head?, d ≠ '0' := by
  have hone : ∀ k < 10, 0 < k → k.digitChar ≠ '0' := by decide
  induction n using Nat.strongRecOn with
  | ind n ih =>
    by_cases hlt : n < 10
    · rw [Nat.toDigits_of_lt_base hlt]
      rintro d ⟨⟩
      exact hone n hlt hn
    · rw [Nat.toDigits_of_base_le (by decide) (by omega),
        List.head?_append_of_ne_nil _ Nat.toDigits_ne_nil]
      exact ih (n / 10) (by omega) (by omega)

lemma number_zero (hrest : Closed rest) : number true ('0'.toUInt8 :: rest) = .ok (.int 0, 1) := by
  rw [number, if_pos rfl, hrest.not_digit, if_neg (by decide), hrest.afterDigits]
  rfl

lemma number_digits {d : Char} (hzero : d ≠ '0') (hds : ∀ e ∈ d :: ds, e.isDigit = true)
    (hmax : Nat.ofDigitChars 10 (d :: ds) 0 ≤ maxUnsigned) (hrest : Closed rest) :
    number true (spelled (d :: ds) ++ rest) =
      .ok (.int (Nat.ofDigitChars 10 (d :: ds) 0 : Nat), (spelled (d :: ds)).length) := by
  rw [length_spelled_digits hds]
  rw [List.forall_mem_cons] at hds
  obtain ⟨hbyte, hdigit, hvalue⟩ := digit_spelled hds.1
  have hne : d.toUInt8 ≠ '0'.toUInt8 := by
    intro h
    have hmem : '0'.toUInt8 ∈ String.utf8EncodeChar d := by
      rw [hbyte, h]
      exact List.mem_singleton_self _
    exact hzero (Text.eq_of_mem_utf8EncodeChar hmem (by decide))
  rw [Nat.ofDigitChars_cons, Nat.mul_zero, Nat.zero_add, ← hvalue] at hmax ⊢
  have hlength := length_spelled_digits hds.2
  have hleft : (spelled ds ++ rest).drop ds.length = rest := List.drop_left' hlength
  rw [spelled_cons, hbyte, List.append_assoc, List.singleton_append, number, if_neg hne,
    if_pos hdigit, gather_digits hds.2 hrest.not_digit hmax]
  dsimp only
  rw [hleft, hrest.digitRun, if_pos rfl, hrest.afterDigits, List.length_cons, Nat.add_comm ds.length]
  rfl

/-- A number of at most 64 bits is read back from its digits. -/
theorem number_toDigits (hn : n ≤ maxUnsigned) (hrest : Closed rest) :
    number true (spelled (Nat.toDigits 10 n) ++ rest) =
      .ok (.int n, (spelled (Nat.toDigits 10 n)).length) := by
  rcases Nat.eq_zero_or_pos n with rfl | hpos
  · exact number_zero hrest
  · obtain ⟨d, ds, hd, -⟩ := exists_toDigits_eq_cons n
    have hzero : d ≠ '0' := head_toDigits_ne_zero hpos d (by rw [hd]; rfl)
    have hds := isDigit_toDigits (n := n)
    have hvalue := Nat.ofDigitChars_ten_toDigits (n := n)
    rw [hd] at hds hvalue ⊢
    rw [number_digits hzero hds (by rw [hvalue]; exact hn) hrest, hvalue]

end Reader

end TransactionEngine.Json
