import TransactionEngine.Json.Scalar

/-! # Reading JSON documents

Lists and objects around a reader for what they hold, whole documents up to a depth, texts that
are one document, and streams of documents.
-/

namespace TransactionEngine.Json

namespace Reader

/-- The items of a list from its first one on, up to and with the closing bracket. -/
def items {α : Type} (item : Reader α) (bs : Bytes) : Except Fault (List α × Nat) := do
  let (x, m) ← item bs
  let n := m + blanks (bs.drop m)
  match _h : bs.drop n with
  | [] => .error (.next .endInList [])
  | b :: rest =>
    if b = ']'.toUInt8 then pure ([x], n + 1)
    else if b = ','.toUInt8 then
      let k := blanks rest
      match rest.drop k with
      | [] => .error (.next .endInValue [])
      | c :: left =>
        if c = ']'.toUInt8 then .error (.next .trailingComma (c :: left))
        else do
          let (xs, l) ← items item (rest.drop k)
          pure (x :: xs, n + 1 + k + l)
    else .error (.next .expectedListEnd (b :: rest))
termination_by bs.length
decreasing_by
  have := congrArg List.length _h
  simp at this ⊢
  omega

def list {α : Type} (item : Reader α) : Reader (List α) := fun bs =>
  let n := blanks bs
  match bs.drop n with
  | [] => .error (.next .endInList [])
  | b :: rest =>
    if b = ']'.toUInt8 then .ok ([], n + 1)
    else do
      let (xs, m) ← items item (b :: rest)
      pure (xs, n + m)

def colon : Reader Unit := fun bs =>
  let n := blanks bs
  match bs.drop n with
  | [] => .error (.next .endInObject [])
  | b :: rest =>
    if b = ':'.toUInt8 then .ok ((), n + 1) else .error (.next .expectedColon (b :: rest))

/-- The fields of an object from after the opening quote of a key, up to and with the closing
brace. `field` reads the colon and the value of a key and adds them to what was read before. -/
def fields {σ : Type} (field : σ → String → Reader σ) (s : σ) (bs : Bytes) :
    Except Fault (σ × Nat) := do
  let (key, k) ← string bs
  let (s, m) ← field s key (bs.drop k)
  let n := k + m + blanks (bs.drop (k + m))
  match _h : bs.drop n with
  | [] => .error (.next .endInObject [])
  | b :: rest =>
    if b = '\x7d'.toUInt8 then pure (s, n + 1)
    else if b = ','.toUInt8 then
      let j := blanks rest
      match rest.drop j with
      | [] => .error (.next .endInValue [])
      | c :: left =>
        if c = '"'.toUInt8 then do
          let (s, l) ← fields field s (rest.drop (j + 1))
          pure (s, n + 1 + (j + 1) + l)
        else if c = '\x7d'.toUInt8 then .error (.next .trailingComma (c :: left))
        else .error (.next .keyNotString (c :: left))
    else .error (.next .expectedObjectEnd (b :: rest))
termination_by bs.length
decreasing_by
  have := congrArg List.length _h
  simp at this ⊢
  omega

def object {σ : Type} (field : σ → String → Reader σ) (s : σ) : Reader σ := fun bs =>
  let n := blanks bs
  match bs.drop n with
  | [] => .error (.next .endInObject [])
  | b :: rest =>
    if b = '\x7d'.toUInt8 then .ok (s, n + 1)
    else if b = '"'.toUInt8 then do
      let (s, m) ← fields field s rest
      pure (s, n + 1 + m)
    else .error (.next .keyNotString (b :: rest))

/-- The colon and the value of a key, kept in the order of keys. -/
def treeField (value : Reader Json) (sorted : List (String × Json)) (key : String) :
    Reader (List (String × Json)) := fun bs => do
  let (_, n) ← colon bs
  let (v, m) ← value (bs.drop n)
  pure (setField key v sorted, n + m)

/-- A word, a number or a string that starts with the byte `b`. -/
def scalarFrom (b : UInt8) : Reader Json := fun rest =>
  if b = 'n'.toUInt8 then (word (Text.bytes "ull") rest).map fun (_, n) => (.null, n)
  else if b = 't'.toUInt8 then (word (Text.bytes "rue") rest).map fun (_, n) => (.bool true, n)
  else if b = 'f'.toUInt8 then (word (Text.bytes "alse") rest).map fun (_, n) => (.bool false, n)
  else if b = '-'.toUInt8 then number false rest
  else if isDigit b then (number true (b :: rest)).map fun (j, n) => (j, n - 1)
  else if b = '"'.toUInt8 then (string rest).map fun (s, n) => (.string s, n)
  else .error (.next .expectedValue (b :: rest))

/-- A document that starts with the byte `b`. `inner` reads what lists and objects hold; without
it they are too deep. -/
def documentFrom (inner : Option (Reader Json)) (b : UInt8) : Reader Json := fun rest =>
  if b = '['.toUInt8 then
    match inner with
    | none => .error (.next .tooDeep (b :: rest))
    | some value => (list value rest).map fun (xs, n) => (.array xs, n)
  else if b = '\x7b'.toUInt8 then
    match inner with
    | none => .error (.next .tooDeep (b :: rest))
    | some value => (object (treeField value) [] rest).map fun (fs, n) => (.object fs, n)
  else scalarFrom b rest

/-- A document, after blanks if there are any. -/
def document (inner : Option (Reader Json)) : Reader Json := fun bs =>
  let n := blanks bs
  match bs.drop n with
  | [] => .error (.next .endInValue [])
  | b :: rest =>
    (documentFrom inner b rest).map fun (j, m) => (j, n + 1 + m)

/-- A document whose lists and objects are nested at most `depth` deep. -/
def value : Nat → Reader Json
  | 0 => document none
  | depth + 1 => document (some (value depth))

end Reader

/-- How deep lists and objects may be nested. -/
def maxDepth : Nat :=
  127

/-- A text that holds one thing and nothing else but blanks. -/
def readWhole {α : Type} (reader : Reader α) (bs : Bytes) : Except Fault α := do
  let (a, n) ← reader bs
  match bs.drop (n + Reader.blanks (bs.drop n)) with
  | [] => pure a
  | b :: rest => .error (.next .trailingCharacters (b :: rest))

def read (bs : Bytes) : Except Fault Json :=
  readWhole (Reader.value maxDepth) bs

/-- Whether a document that starts with this byte shows where it ends. -/
def delimited (b : UInt8) : Bool :=
  b = '['.toUInt8 || b = '\x7b'.toUInt8 || b = '"'.toUInt8

/-- Whether a number or a word may end before this text. -/
def endsScalar : Bytes → Bool
  | [] => true
  | b :: _ => Reader.isBlank b || (Text.bytes "\"[]\x7b\x7d,:").contains b

/-- The documents of a stream up to its end or its first fault. -/
def documents (bs : Bytes) : List (Except Fault Json) :=
  match _h : bs.drop (Reader.blanks bs) with
  | [] => []
  | b :: rest =>
    match Reader.value maxDepth (b :: rest) with
    | .error f => [.error f]
    | .ok (j, n) =>
      let left := rest.drop (n - 1)
      if delimited b || endsScalar left then .ok j :: documents left
      else [.error (.next .trailingCharacters left)]
termination_by bs.length
decreasing_by
  have := congrArg List.length _h
  simp at this ⊢
  omega

end TransactionEngine.Json
