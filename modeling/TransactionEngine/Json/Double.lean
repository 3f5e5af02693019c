/-! # Double-precision numbers

A double is kept as its 64 bits. The module rounds ratios of natural numbers to doubles, builds
doubles from decimal digits the way the wire format reads them, and writes a double with the
fewest digits that read back.
-/

namespace TransactionEngine.Json

/-- A double by its bits: sign, eleven bits of exponent, fifty-two of fraction. -/
structure Double where
  bits : UInt64
deriving DecidableEq, Inhabited

namespace Double

/-- The bits of a positive magnitude that rounded to `digits · 2 ^ (place - 1074)`; a magnitude
past the largest double becomes infinite. -/
def pack (digits place : Nat) : Double :=
  ⟨UInt64.ofNat (min (place * Nat.pow 2 52 + digits) (2047 * Nat.pow 2 52))⟩

/-- The nearest integer to `num / den`; a half goes to the even neighbour. -/
def roundHalfEven (num den : Nat) : Nat :=
  let q := num / den
  let twice := 2 * (num % den)
  if den < twice || (twice == den && q % 2 == 1) then q + 1 else q

/-- The double nearest to `num / den`; a half goes to the even neighbour. -/
def ofRatio (num den : Nat) : Double :=
  -- `scaled / 2 ^ 1074` is the ratio, and its last kept binary place is chosen below.
  let scaled := num * Nat.pow 2 1074
  let whole := scaled / den
  let place := whole.log2 - 52
  pack (roundHalfEven scaled (den * Nat.pow 2 place)) place

def isNegative (d : Double) : Bool :=
  Nat.pow 2 63 ≤ d.bits.toNat

def negate (d : Double) : Double :=
  ⟨d.bits ^^^ 0x8000000000000000⟩

/-- The bits without the sign. -/
def magnitude (d : Double) : Nat :=
  d.bits.toNat % Nat.pow 2 63

def isInfinite (d : Double) : Bool :=
  2047 * Nat.pow 2 52 ≤ d.magnitude

/-- A finite magnitude is `significand d · 2 ^ (place d - 1074)`. -/
def place (d : Double) : Nat :=
  d.magnitude / Nat.pow 2 52 - 1

/-- The digits of a finite magnitude in base two, as one number. -/
def significand (d : Double) : Nat :=
  if d.magnitude < Nat.pow 2 52 then d.magnitude else Nat.pow 2 52 + d.magnitude % Nat.pow 2 52

/-- A finite magnitude times `2 ^ 1074`. -/
def scaled (d : Double) : Nat :=
  d.significand * Nat.pow 2 d.place

/-- The product of two finite magnitudes, rounded. -/
def mul (d e : Double) : Double :=
  ofRatio (d.scaled * e.scaled) (Nat.pow 2 2148)

/-- The quotient of two finite magnitudes, rounded. -/
def div (d e : Double) : Double :=
  ofRatio d.scaled e.scaled

/-- The double nearest to `10 ^ e`. -/
def tenPower (e : Nat) : Double :=
  ofRatio (Nat.pow 10 e) 1

/-- The magnitude `significand · 10 ^ exponent` as the wire format reads it: the significand is
rounded first, then multiplied or divided by a rounded power of ten (by 10 ^ 308 as often as
that is needed). `none` stands for a magnitude past the largest double. -/
def scale (d : Double) (exponent : Int) : Option Double :=
  if exponent.natAbs ≤ 308 then
    if 0 ≤ exponent then
      let r := d.mul (tenPower exponent.natAbs)
      if r.isInfinite then none else some r
    else some (d.div (tenPower exponent.natAbs))
  else if d.magnitude = 0 then some d
  else if 0 ≤ exponent then none
  else scale (d.div (tenPower 308)) (exponent + 308)
termination_by exponent.natAbs

/-- The double read from a sign, a significand and a decimal exponent. -/
def ofDecimal? (positive : Bool) (significand : Nat) (exponent : Int) : Option Double :=
  (scale (ofRatio significand 1) exponent).map fun d => if positive then d else d.negate

/-! ### The fewest digits that read back -/

/-- A decimal `digits · 10 ^ exponent`. -/
structure Decimal where
  digits : Nat
  exponent : Int

/-- The number of decimal digits of `n`, at least one. -/
def digitCount (n : Nat) : Nat :=
  (Nat.toDigits 10 n).length

/-- The decimals on the grid `10 ^ exponent` next to `num / den` that lie strictly between
`low / den` and `high / den`, or on a bound when `closed`; of two the nearer one, of two equally
near the even one. -/
def onGrid (num low high den : Nat) (closed : Bool) (exponent : Int) : Option Decimal :=
  let up := Nat.pow 10 exponent.toNat
  let down := Nat.pow 10 (-exponent).toNat
  -- `n · 10 ^ exponent` is compared with `x / den` as `n * den * up` with `x * down`.
  let step := den * up
  let value := num * down
  let below := value / step
  let inside (n : Nat) : Bool :=
    0 < n && (if closed then low * down ≤ n * step && n * step ≤ high * down
      else low * down < n * step && n * step < high * down)
  let twice := 2 * (value % step)
  let lowerFirst := twice < step || (twice == step && below % 2 == 0)
  if inside below && (lowerFirst || !inside (below + 1)) then some ⟨below, exponent⟩
  else if inside (below + 1) then some ⟨below + 1, exponent⟩
  else none

/-- The first grid with a hit, from `exponent` downwards. -/
def firstHit (num low high den : Nat) (closed : Bool) : Nat → Int → Decimal
  | 0, exponent => ⟨num * Nat.pow 10 (-exponent).toNat / den, exponent⟩
  | fuel + 1, exponent =>
    match onGrid num low high den closed exponent with
    | some d => d
    | none => firstHit num low high den closed fuel (exponent - 1)

/-- The decimal exponent of the leading digit of `num / den`, a positive ratio. -/
def leadingPlace (num den : Nat) : Int :=
  if den ≤ num then (digitCount (num / den) : Int) - 1
  else
    -- The quotient of the larger by the smaller, rounded up, has one digit more than the place.
    -(digitCount ((den - 1) / num) : Int)

/-- The shortest decimal in the interval of reals that round to a positive finite magnitude. -/
def shortest (d : Double) : Decimal :=
  -- Everything is over `4 · 2 ^ 1074`: the gap to a neighbour is four units times `2 ^ place`.
  let unit := Nat.pow 2 d.place
  let num := 4 * d.significand * unit
  let den := 4 * Nat.pow 2 1074
  let high := num + 2 * unit
  let low := if d.significand = Nat.pow 2 52 && 0 < d.place then num - unit else num - 2 * unit
  firstHit num low high den (d.significand % 2 == 0) 17 (leadingPlace num den)

/-- The digits without the zeros at their end, and how many zeros those were. -/
def stripZeros : Nat → Nat → Nat × Nat
  | 0, n => (n, 0)
  | fuel + 1, n =>
    if n % 10 = 0 && 0 < n then
      let (m, k) := stripZeros fuel (n / 10)
      (m, k + 1)
    else (n, 0)

/-- The text of a positive decimal: positional when its leading digit stands for 10 ^ -5 up to
10 ^ 15, with a point and at least one digit after it; else one digit, the others after a point,
and the exponent with its sign. -/
def Decimal.text (d : Decimal) : String :=
  let (digits, zeros) := stripZeros 400 d.digits
  let exponent := d.exponent + zeros
  let text := Nat.toDigits 10 digits
  let leading := exponent + text.length - 1
  if -5 ≤ leading && leading < 16 then
    if 0 ≤ exponent then
      String.ofList (text ++ List.replicate exponent.toNat '0') ++ ".0"
    else if 0 ≤ leading then
      let whole := leading.toNat + 1
      String.ofList (text.take whole) ++ "." ++ String.ofList (text.drop whole)
    else
      "0." ++ String.ofList (List.replicate (-leading - 1).toNat '0' ++ text)
  else
    let head := String.ofList (text.take 1)
    let tail := text.drop 1
    let mantissa := if tail.isEmpty then head else head ++ "." ++ String.ofList tail
    mantissa ++ "e" ++ (if 0 ≤ leading then "+" else "-") ++ toString leading.natAbs

def text (d : Double) : String :=
  let magnitude := if d.magnitude = 0 then "0.0" else d.shortest.text
  if d.isNegative then "-" ++ magnitude else magnitude

end Double

end TransactionEngine.Json
