import Mathlib.Data.List.Basic
import TransactionEngine.Reply

/-!
# A reply is one line

In the compact form of a document a newline can only come from a text, and there it is escaped. So
the line of a reply ends in its only newline, whatever texts the reply holds. The fields of an object
stand in that form in their order.
-/

namespace TransactionEngine

namespace Json

lemma newline_not_mem_toDigits (n : Nat) : '\n' ∉ Nat.toDigits 10 n := by
  intro h
  have hd := Nat.isDigit_of_mem_toDigits (by omega) (by omega) h
  revert hd
  decide

lemma newline_not_mem_intChars (n : Int) : '\n' ∉ intChars n := by
  cases n <;> simp [intChars, newline_not_mem_toDigits]

lemma newline_not_mem_hex4 (n : Nat) : '\n' ∉ Text.hex4 n := by
  have h (m : Nat) : '\n' ≠ Nat.digitChar (m % 16) := by
    have hm : m % 16 < 16 := Nat.mod_lt _ (by omega)
    generalize m % 16 = k at hm
    revert k
    decide
  simp [Text.hex4, h]

lemma newline_not_mem_escapedChar (c : Char) : '\n' ∉ escapedChar c := by
  unfold escapedChar
  split_ifs with _ _ _ _ hc
  -- The two cases left are a character in hexadecimal digits, and one that stands as it is.
  all_goals try decide
  · simp [newline_not_mem_hex4]
  · simpa using fun h => hc h.symm

lemma newline_not_mem_stringChars (s : String) : '\n' ∉ stringChars s := by
  simp [stringChars, newline_not_mem_escapedChar]

lemma newline_not_mem_decimal (d : Double.Decimal) : '\n' ∉ d.text.toList := by
  have htake (n k : Nat) : '\n' ∉ (Nat.toDigits 10 n).take k :=
    fun h => newline_not_mem_toDigits n (List.mem_of_mem_take h)
  have hdrop (n k : Nat) : '\n' ∉ (Nat.toDigits 10 n).drop k :=
    fun h => newline_not_mem_toDigits n (List.mem_of_mem_drop h)
  unfold Double.Decimal.text
  dsimp only
  split_ifs <;>
    simp [htake, hdrop, newline_not_mem_toDigits, List.mem_replicate, Nat.toList_repr,
      -List.drop_one]

lemma newline_not_mem_double (d : Double) : '\n' ∉ d.text.toList := by
  unfold Double.text
  split_ifs <;> simp [newline_not_mem_decimal]

/-! ### Documents -/

mutual

theorem newline_not_mem_chars (j : Json) : '\n' ∉ j.chars :=
  match j with
  | .null | .bool true | .bool false => by simp [chars]
  | .int n => by simp [chars, newline_not_mem_intChars]
  | .double d => by simp [chars, newline_not_mem_double]
  | .string s => by simp [chars, newline_not_mem_stringChars]
  | .array items => by simp [chars, newline_not_mem_itemChars items]
  | .object fields => by simp [chars, newline_not_mem_fieldChars fields]

theorem newline_not_mem_itemChars (items : List Json) : '\n' ∉ itemChars items :=
  match items with
  | [] => by simp [itemChars]
  | [item] => by simp [itemChars, newline_not_mem_chars item]
  | item :: next :: items => by
    simp [itemChars, newline_not_mem_chars item, newline_not_mem_itemChars (next :: items)]

theorem newline_not_mem_fieldChars (fields : List (String × Json)) : '\n' ∉ fieldChars fields :=
  match fields with
  | [] => by simp [fieldChars]
  | [(key, value)] => by
    simp [fieldChars, newline_not_mem_stringChars, newline_not_mem_chars value]
  | (key, value) :: next :: fields => by
    simp [fieldChars, newline_not_mem_stringChars, newline_not_mem_chars value,
      newline_not_mem_fieldChars (next :: fields)]

end

lemma ofList_fieldChars (fields : List (String × Json)) :
    String.ofList (fieldChars fields) =
      ",".intercalate (fields.map fun f => (string f.1).compact ++ ":" ++ f.2.compact) := by
  induction fields with
  | nil => rfl
  | cons f fs ih =>
    cases fs with
    | nil => simp [fieldChars, compact, chars, ← String.toList_inj]
    | cons g gs =>
      rw [List.map_cons] at ih
      rw [List.map_cons, List.map_cons, String.intercalate_cons_cons, ← ih]
      simp [fieldChars, compact, chars, ← String.toList_inj]

/-- The compact form of an object has its fields in their order. -/
lemma compact_object (fields : List (String × Json)) :
    (object fields).compact = "\x7b" ++
      ",".intercalate (fields.map fun f => (string f.1).compact ++ ":" ++ f.2.compact) ++ "\x7d" := by
  rw [← ofList_fieldChars, compact, chars]
  simp [← String.toList_inj]

end Json

namespace Reply

/-- The line of a reply is its text and a newline, and there is no other one. -/
theorem line_eq (r : Reply) : r.line.toList = r.text.toList ++ ['\n'] ∧ '\n' ∉ r.text.toList := by
  constructor
  · rw [line, String.toList_append]
    rfl
  · rw [text, Json.compact, String.toList_ofList]
    exact Json.newline_not_mem_chars _

end Reply

end TransactionEngine
