/-! # SipHash-1-3

The keyed hash with one round per block and three final rounds, under the all-zero key, over a
list of bytes.
-/

namespace TransactionEngine.Hash

/-- The least significant byte first. -/
def littleEndian (n : UInt64) : List UInt8 :=
  [n, n >>> 8, n >>> 16, n >>> 24, n >>> 32, n >>> 40, n >>> 48, n >>> 56].map UInt64.toUInt8

/-- The word whose bytes, least significant first, are given; absent bytes are zero. -/
def word : List UInt8 → UInt64
  | [] => 0
  | b :: bytes => b.toUInt64 ||| word bytes <<< 8

/-- The four words the hash mixes. -/
structure SipState where
  v0 : UInt64
  v1 : UInt64
  v2 : UInt64
  v3 : UInt64

namespace SipState

/-- The state before the first block, for the all-zero key. -/
def initial : SipState :=
  ⟨0x736f6d6570736575, 0x646f72616e646f6d, 0x6c7967656e657261, 0x7465646279746573⟩

/-- The bits of `n` moved `k` places up, those that leave at the top coming back below. -/
def rotate (n : UInt64) (k : UInt64) : UInt64 :=
  n <<< k ||| n >>> (64 - k)

def round (s : SipState) : SipState :=
  let v0 := s.v0 + s.v1
  let v1 := rotate s.v1 13 ^^^ v0
  let v0 := rotate v0 32
  let v2 := s.v2 + s.v3
  let v3 := rotate s.v3 16 ^^^ v2
  let v0 := v0 + v3
  let v3 := rotate v3 21 ^^^ v0
  let v2 := v2 + v1
  let v1 := rotate v1 17 ^^^ v2
  let v2 := rotate v2 32
  ⟨v0, v1, v2, v3⟩

def absorb (s : SipState) (block : UInt64) : SipState :=
  let t := round { s with v3 := s.v3 ^^^ block }
  { t with v0 := t.v0 ^^^ block }

def finish (s : SipState) : UInt64 :=
  let t := round (round (round { s with v2 := s.v2 ^^^ 0xff }))
  t.v0 ^^^ t.v1 ^^^ t.v2 ^^^ t.v3

end SipState

/-- Takes in whole blocks as long as there are any, then the rest under the length of it all. -/
def sipBlocks (length : Nat) (s : SipState) : List UInt8 → UInt64
  | b0 :: b1 :: b2 :: b3 :: b4 :: b5 :: b6 :: b7 :: bytes =>
    sipBlocks length (s.absorb (word [b0, b1, b2, b3, b4, b5, b6, b7])) bytes
  | rest => (s.absorb (UInt64.ofNat length <<< 56 ||| word rest)).finish

def sipHash (bytes : List UInt8) : UInt64 :=
  sipBlocks bytes.length .initial bytes

end TransactionEngine.Hash
