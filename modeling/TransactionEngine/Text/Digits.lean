/-! # Numbers in hexadecimal

Lower-case hexadecimal digits, as escapes in texts write them.
-/

namespace TransactionEngine.Text

/-- The digits of `n` in base 16, lower case and without leading zeros. -/
def hex (n : Nat) : List Char :=
  Nat.toDigits 16 n

/-- The four lowest hexadecimal digits of `n`, lower case. -/
def hex4 (n : Nat) : List Char :=
  [n / 4096 % 16, n / 256 % 16, n / 16 % 16, n % 16].map Nat.digitChar

end TransactionEngine.Text
