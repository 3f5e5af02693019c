import TransactionEngine.Text.Digits
import TransactionEngine.Text.Invisible

/-! # Quoted names

How messages show a name: between double quotes, with the quote and the backslash escaped, the
usual short escapes, and every invisible character by its code point.
-/

namespace TransactionEngine.Text

def quotedChar (c : Char) : List Char :=
  if c = '"' then ['\\', '"']
  else if c = '\\' then ['\\', '\\']
  else if c = '\x00' then ['\\', '0']
  else if c = '\t' then ['\\', 't']
  else if c = '\r' then ['\\', 'r']
  else if c = '\n' then ['\\', 'n']
  else if c.toNat < 0x20 || c.toNat = 0x7F || (0x80 ≤ c.toNat && invisible c.toNat) then
    ['\\', 'u', '\x7b'] ++ hex c.toNat ++ ['\x7d']
  else [c]

def quoted (s : String) : String :=
  String.ofList ('"' :: s.toList.flatMap quotedChar ++ ['"'])

/-- A list of numbers as messages show it: `[1, 2]`. -/
def bracketed (items : List String) : String :=
  "[" ++ ", ".intercalate items ++ "]"

example : quoted "a\"b\n" = "\"a\\\"b\\n\"" := by decide +kernel
example : quoted "é\u0301\x7f" = "\"é\\u\x7b301\x7d\\u\x7b7f\x7d\"" := by decide +kernel

end TransactionEngine.Text
