/-! # Texts as bytes

The UTF-8 bytes of a text, and the text that bytes spell.
-/

namespace TransactionEngine.Text

def bytes (s : String) : List UInt8 :=
  s.toByteArray.data.toList

/-- The text that bytes spell in UTF-8; `none` when they spell none. -/
def ofBytes? (bs : List UInt8) : Option String :=
  String.fromUTF8? ⟨bs.toArray⟩

def firstChar? (bs : List UInt8) : Option Char :=
  (⟨(bs.take 4).toArray⟩ : ByteArray).utf8DecodeChar? 0

/-- How many bytes there are before the first one that belongs to no character. -/
def validLength (bs : List UInt8) : Nat :=
  match bs with
  | [] => 0
  | b :: rest =>
    match firstChar? (b :: rest) with
    | none => 0
    | some c => c.utf8Size + validLength (rest.drop (c.utf8Size - 1))
termination_by bs.length
decreasing_by simp only [List.length_cons, List.length_drop]; omega

end TransactionEngine.Text
