import TransactionEngine.Json.Fault
import TransactionEngine.Text.Bytes

/-! # Words, numbers and strings of JSON text

Readers of what has no parts. A reader says how many bytes it took.
-/

namespace TransactionEngine.Json

/-- Reads a value off the front of a text and says how many bytes that took. -/
abbrev Reader (α : Type) := Bytes → Except Fault (α × Nat)

namespace Reader

def isBlank (b : UInt8) : Bool :=
  b = ' '.toUInt8 || b = '\t'.toUInt8 || b = '\n'.toUInt8 || b = '\r'.toUInt8

def blanks (bs : Bytes) : Nat :=
  (bs.takeWhile isBlank).length

def isDigit (b : UInt8) : Bool :=
  '0'.toUInt8 ≤ b && b ≤ '9'.toUInt8

def digitValue (b : UInt8) : Nat :=
  b.toNat - 48

def digitRun (bs : Bytes) : Nat :=
  (bs.takeWhile isDigit).length

def startsWithDigit : Bytes → Bool
  | b :: _ => isDigit b
  | [] => false

def word : List UInt8 → Reader Unit
  | [], _ => .ok ((), 0)
  | _ :: _, [] => .error (.taking .endInValue [])
  | c :: cs, b :: bs =>
    if b = c then do
      let (_, n) ← word cs bs
      pure ((), n + 1)
    else .error (.taking .expectedWord bs)

/-- Appends digits to `n` as long as the result is at most `limit`; also says how many. -/
def gather (limit n : Nat) : Bytes → Nat × Nat
  | [] => (n, 0)
  | b :: bs =>
    if isDigit b && n * 10 + digitValue b ≤ limit then
      let (m, k) := gather limit (n * 10 + digitValue b) bs
      (m, k + 1)
    else (n, 0)

/-- The largest integer that is kept as one. -/
def maxUnsigned : Nat :=
  UInt64.size - 1

/-- The largest decimal exponent that is kept as a number. -/
def maxExponent : Nat :=
  Nat.pow 2 31 - 1

/-- The double of a significand and an exponent, of which the last byte taken stands before
`left`. -/
def finishDouble (positive : Bool) (significand : Nat) (exponent : Int) (left : Bytes) :
    Except Fault Json :=
  match Double.ofDecimal? positive significand exponent with
  | some d => .ok (.double d)
  | none => .error (.looking .numberOutOfRange left)

/-- What follows the mark of an exponent. An exponent too large to be kept makes zero of a zero
significand or if it is negative. -/
def exponentPart (positive : Bool) (significand : Nat) (exponent : Int) : Reader Json := fun bs =>
  let (up, n) := match bs with
    | b :: _ => if b = '+'.toUInt8 then (true, 1) else if b = '-'.toUInt8 then (false, 1)
      else (true, 0)
    | [] => (true, 0)
  match bs.drop n with
  | [] => .error (.taking .endInValue [])
  | b :: rest =>
    if isDigit b then
      let (e, k) := gather maxExponent (digitValue b) rest
      let left := rest.drop k
      if startsWithDigit left then
        if significand ≠ 0 && up then .error (.taking .numberOutOfRange (left.drop 1))
        else .ok (.double (if positive then ⟨0⟩ else Double.negate ⟨0⟩), n + 1 + k + digitRun left)
      else do
        let j ← finishDouble positive significand (if up then exponent + e else exponent - e) left
        pure (j, n + 1 + k)
    else .error (.taking .invalidNumber rest)

/-- What follows the decimal point. Digits past the largest significand are dropped. -/
def fractionPart (positive : Bool) (significand : Nat) (exponent : Int) : Reader Json := fun bs =>
  let (s, k) := gather maxUnsigned significand bs
  let dropped := digitRun (bs.drop k)
  let n := k + dropped
  match bs.drop n with
  | [] =>
    if n = 0 then .error (.next .endInValue [])
    else do
      let j ← finishDouble positive s (exponent - k) []
      pure (j, n)
  | b :: rest =>
    if n = 0 then .error (.next .invalidNumber (b :: rest))
    else if b = 'e'.toUInt8 || b = 'E'.toUInt8 then do
      let (j, m) ← exponentPart positive s (exponent - k) rest
      pure (j, n + 1 + m)
    else do
      let j ← finishDouble positive s (exponent - k) (b :: rest)
      pure (j, n)

/-- What follows the digits in front, if a point or the mark of an exponent does. -/
def afterDigits (positive : Bool) (significand : Nat) (exponent : Int)
    (plain : Bytes → Except Fault Json) : Reader Json := fun bs =>
  match bs with
  | [] => (plain []).map (·, 0)
  | b :: rest =>
    if b = '.'.toUInt8 then do
      let (j, n) ← fractionPart positive significand exponent rest
      pure (j, n + 1)
    else if b = 'e'.toUInt8 || b = 'E'.toUInt8 then do
      let (j, n) ← exponentPart positive significand exponent rest
      pure (j, n + 1)
    else (plain (b :: rest)).map (·, 0)

/-- An integer if it fits in 64 bits; a negative zero and larger ones are doubles. -/
def plainInteger (positive : Bool) (n : Nat) : Json :=
  if positive then .int n
  else if n = 0 || Nat.pow 2 63 < n then .double (Double.ofRatio n 1).negate
  else .int (-n)

def number (positive : Bool) : Reader Json
  | [] => .error (.taking .endInValue [])
  | b :: rest =>
    if b = '0'.toUInt8 then
      if startsWithDigit rest then .error (.next .invalidNumber rest)
      else do
        let (j, n) ← afterDigits positive 0 0 (fun _ => .ok (plainInteger positive 0)) rest
        pure (j, n + 1)
    else if isDigit b then
      let (s, k) := gather maxUnsigned (digitValue b) rest
      let more := digitRun (rest.drop k)
      if more = 0 then do
        let (j, n) ← afterDigits positive s 0 (fun _ => .ok (plainInteger positive s)) (rest.drop k)
        pure (j, 1 + k + n)
      else do
        let (j, n) ← afterDigits positive s more (finishDouble positive s more)
          (rest.drop (k + more))
        pure (j, 1 + k + more + n)
    else .error (.taking .invalidNumber rest)

/-! ### Strings -/

def hexValue? (b : UInt8) : Option Nat :=
  if isDigit b then some (b.toNat - 48)
  else if 'a'.toUInt8 ≤ b && b ≤ 'f'.toUInt8 then some (b.toNat - 87)
  else if 'A'.toUInt8 ≤ b && b ≤ 'F'.toUInt8 then some (b.toNat - 55)
  else none

def fourHex : Bytes → Except Fault Nat
  | a :: b :: c :: d :: left =>
    match hexValue? a, hexValue? b, hexValue? c, hexValue? d with
    | some a, some b, some c, some d => .ok (((a * 16 + b) * 16 + c) * 16 + d)
    | _, _, _, _ => .error (.taking .invalidEscape left)
  | _ => .error (.taking .endInString [])

def isHighSurrogate (n : Nat) : Bool :=
  0xD800 ≤ n && n ≤ 0xDBFF

def isLowSurrogate (n : Nat) : Bool :=
  0xDC00 ≤ n && n ≤ 0xDFFF

/-- What follows `\u`: a code point, or a pair of surrogates. -/
def codePoint : Reader Bytes := fun bs => do
  let n ← fourHex bs
  let left := bs.drop 4
  if isLowSurrogate n then .error (.taking .loneSurrogate left)
  else if !isHighSurrogate n then pure (String.utf8EncodeChar (Char.ofNat n), 4)
  else match left with
    | [] => .error (.taking .endInString [])
    | b :: left =>
      if b ≠ '\\'.toUInt8 then .error (.taking .escapeCutShort left)
      else match left with
        | [] => .error (.taking .endInString [])
        | c :: left =>
          if c ≠ 'u'.toUInt8 then .error (.taking .escapeCutShort left)
          else do
            let m ← fourHex left
            if isLowSurrogate m then
              let point := (n - 0xD800) * 1024 + (m - 0xDC00) + 0x10000
              pure (String.utf8EncodeChar (Char.ofNat point), 10)
            else .error (.taking .loneSurrogate (left.drop 4))

def shortEscape? (b : UInt8) : Option UInt8 :=
  if b = '"'.toUInt8 then some b
  else if b = '\\'.toUInt8 then some b
  else if b = '/'.toUInt8 then some b
  else if b = 'b'.toUInt8 then some 8
  else if b = 'f'.toUInt8 then some 12
  else if b = 'n'.toUInt8 then some 10
  else if b = 'r'.toUInt8 then some 13
  else if b = 't'.toUInt8 then some 9
  else none

/-- What follows a backslash. -/
def escape : Reader Bytes
  | [] => .error (.taking .endInString [])
  | b :: rest =>
    match shortEscape? b with
    | some c => .ok ([c], 1)
    | none =>
      if b = 'u'.toUInt8 then do
        let (cs, n) ← codePoint rest
        pure (cs, n + 1)
      else .error (.taking .invalidEscape rest)

/-- The bytes of a string up to and with its closing quote, escapes resolved. -/
def stringBytes (bs : Bytes) : Except Fault (Bytes × Nat) :=
  match bs with
  | [] => .error (.taking .endInString [])
  | b :: rest =>
    if b = '"'.toUInt8 then .ok ([], 1)
    else if b = '\\'.toUInt8 then do
      let (cs, n) ← escape rest
      let (more, m) ← stringBytes (rest.drop n)
      pure (cs ++ more, 1 + n + m)
    else if b < 0x20 then .error (.taking .controlCharacter rest)
    else do
      let (more, m) ← stringBytes rest
      pure (b :: more, m + 1)
termination_by bs.length
decreasing_by all_goals simp only [List.length_cons, List.length_drop]; omega

/-- A string after its opening quote. Bytes that spell no text are a fault: its place lies as many
bytes before the closing quote as there are bytes after those that do spell text. -/
def string : Reader String := fun bs => do
  let (cs, n) ← stringBytes bs
  match Text.ofBytes? cs with
  | some s => pure (s, n)
  | none => .error (.earlier .invalidCodePoint (cs.length - Text.validLength cs) (bs.drop n))

end Reader

end TransactionEngine.Json
