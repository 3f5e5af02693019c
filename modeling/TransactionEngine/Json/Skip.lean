import TransactionEngine.Json.Scalar

/-! # Passing over documents

A document whose content does not matter is only followed to its end: brackets are matched, but
numbers are not rounded, surrogates are not paired and there is no limit to the depth.
-/

namespace TransactionEngine.Json

namespace Reader

def skipExponent (bs : Bytes) : Except Fault Nat :=
  let n := match bs with
    | b :: _ => if b = '+'.toUInt8 || b = '-'.toUInt8 then 1 else 0
    | [] => 0
  match bs.drop n with
  | [] => .error (.taking .invalidNumber [])
  | b :: rest =>
    if isDigit b then .ok (n + 1 + digitRun rest) else .error (.taking .invalidNumber rest)

/-- What follows the digits in front, if a point or the mark of an exponent does. -/
def skipFraction (bs : Bytes) : Except Fault Nat :=
  let exponent (bs : Bytes) : Except Fault Nat :=
    match bs with
    | [] => .ok 0
    | b :: rest =>
      if b = 'e'.toUInt8 || b = 'E'.toUInt8 then (skipExponent rest).map (· + 1) else .ok 0
  match bs with
  | [] => .ok 0
  | b :: rest =>
    if b = '.'.toUInt8 then
      let n := digitRun rest
      if n = 0 then .error (.next .invalidNumber rest)
      else (exponent (rest.drop n)).map (· + 1 + n)
    else exponent (b :: rest)

def skipNumber : Bytes → Except Fault Nat
  | [] => .error (.taking .invalidNumber [])
  | b :: rest =>
    if b = '0'.toUInt8 then
      if startsWithDigit rest then .error (.next .invalidNumber rest)
      else (skipFraction rest).map (· + 1)
    else if isDigit b then
      let n := digitRun rest
      (skipFraction (rest.drop n)).map (· + 1 + n)
    else .error (.taking .invalidNumber rest)

def skipEscape : Bytes → Except Fault Nat
  | [] => .error (.taking .endInString [])
  | b :: rest =>
    if (shortEscape? b).isSome then .ok 1
    else if b = 'u'.toUInt8 then (fourHex rest).map fun _ => 5
    else .error (.taking .invalidEscape rest)

/-- A string after its opening quote. A control character in it is not taken. -/
def skipString (bs : Bytes) : Except Fault Nat :=
  match bs with
  | [] => .error (.taking .endInString [])
  | b :: rest =>
    if b = '"'.toUInt8 then .ok 1
    else if b = '\\'.toUInt8 then do
      let n ← skipEscape rest
      let m ← skipString (rest.drop n)
      pure (1 + n + m)
    else if b < 0x20 then .error (.taking .controlCharacter (b :: rest))
    else (skipString rest).map (· + 1)
termination_by bs.length
decreasing_by all_goals simp only [List.length_cons, List.length_drop]; omega

/-- A bracket that is still open. -/
inductive Open where
  | list
  | object
deriving DecidableEq, Repr

/-- What a text that ends inside a bracket ends in. -/
def Open.endFault : Open → SyntaxFault
  | list => .endInList
  | object => .endInObject

/-- What is wrong when neither a comma nor the closing bracket follows. -/
def Open.commaFault : Open → SyntaxFault
  | list => .expectedListEnd
  | object => .expectedObjectEnd

/-- The byte that closes a bracket. -/
def Open.closing : Open → UInt8
  | list => ']'.toUInt8
  | object => '\x7d'.toUInt8

/-- A word or a number or a string that starts with the byte `b`. -/
def skipScalar (b : UInt8) (rest : Bytes) : Except Fault Nat :=
  if b = 'n'.toUInt8 then (word (Text.bytes "ull") rest).map Prod.snd
  else if b = 't'.toUInt8 then (word (Text.bytes "rue") rest).map Prod.snd
  else if b = 'f'.toUInt8 then (word (Text.bytes "alse") rest).map Prod.snd
  else if b = '-'.toUInt8 then skipNumber rest
  else if isDigit b then (skipNumber (b :: rest)).map (· - 1)
  else if b = '"'.toUInt8 then skipString rest
  else .error (.next .expectedValue (b :: rest))

/-- A key and its colon, after blanks if there are any. -/
def skipKey (bs : Bytes) : Except Fault Nat := do
  let n := blanks bs
  match bs.drop n with
  | [] => .error (.next .endInObject [])
  | b :: rest =>
    if b = '"'.toUInt8 then do
      let k ← skipString rest
      let m := k + blanks (rest.drop k)
      match rest.drop m with
      | [] => .error (.next .endInObject [])
      | c :: left =>
        if c = ':'.toUInt8 then pure (n + 1 + m + 1) else .error (.next .expectedColon (c :: left))
    else .error (.next .keyNotString (b :: rest))

mutual

/-- A document inside open brackets, up to where all of them are closed. -/
def skipIn (pending : List Open) (bs : Bytes) : Except Fault Nat := do
  let n := blanks bs
  match _h : bs.drop n with
  | [] => .error (.next .endInValue [])
  | b :: rest =>
    let opening : Option Open :=
      if b = '['.toUInt8 then some .list else if b = '\x7b'.toUInt8 then some .object else none
    match opening with
    | none => do
      let m ← skipScalar b rest
      let k ← skipAfter pending (rest.drop m)
      pure (n + 1 + m + k)
    | some bracket =>
      let m := blanks rest
      match _h' : rest.drop m with
      | [] => .error (.next bracket.endFault [])
      | c :: left =>
        if c = bracket.closing then do
          let k ← skipAfter pending left
          pure (n + 1 + m + 1 + k)
        else do
          let j ← if bracket = .object then skipKey rest else pure 0
          let k ← skipIn (bracket :: pending) (rest.drop j)
          pure (n + 1 + j + k)
termination_by bs.length
decreasing_by
  · have h := congrArg List.length _h
    simp at h ⊢
    omega
  · have h := congrArg List.length _h
    have h' := congrArg List.length _h'
    simp at h h' ⊢
    omega
  · have h := congrArg List.length _h
    simp at h ⊢
    omega

def skipAfter (pending : List Open) (bs : Bytes) : Except Fault Nat :=
  match pending with
  | [] => .ok 0
  | bracket :: pending => do
    let n := blanks bs
    match _h : bs.drop n with
    | [] => .error (.next bracket.endFault [])
    | b :: rest =>
      if b = ','.toUInt8 then do
        let j ← if bracket = .object then skipKey rest else pure 0
        let k ← skipIn (bracket :: pending) (rest.drop j)
        pure (n + 1 + j + k)
      else if b = bracket.closing then do
        let k ← skipAfter pending rest
        pure (n + 1 + k)
      else .error (.next bracket.commaFault (b :: rest))
termination_by bs.length
decreasing_by
  all_goals
    have h := congrArg List.length _h
    simp at h ⊢
    omega

end

def skip (bs : Bytes) : Except Fault Nat :=
  skipIn [] bs

end Reader

end TransactionEngine.Json
