import TransactionEngine.Json.Document
import TransactionEngine.Json.Skip

/-! # Reading records from text

Readers that fill records straight from text, so that a fault of shape has a place. A record is an
object, or a list of the fields' values in their order.
-/

namespace TransactionEngine.Json

namespace Reader

/-- The fault of a document of another type than wanted, which starts with the byte `b`. Scalars
are taken first. -/
def mistyped (wanted : String) (b : UInt8) (rest : Bytes) : Fault :=
  if b = '['.toUInt8 then .shaped (.wrongType .sequence wanted) (b :: rest)
  else if b = '\x7b'.toUInt8 then .shaped (.wrongType .map wanted) (b :: rest)
  else match scalarFrom b rest with
    | .ok (j, n) => .shaped (.wrongType j.found wanted) (rest.drop n)
    | .error f => f

/-- A document that is read by its first byte, after blanks if there are any. -/
def byFirst {α : Type} (read : UInt8 → Reader α) : Reader α := fun bs =>
  let n := blanks bs
  match bs.drop n with
  | [] => .error (.next .endInValue [])
  | b :: rest => (read b rest).map fun (a, m) => (a, n + 1 + m)

def text (wanted : String) : Reader String :=
  byFirst fun b rest =>
    if b = '"'.toUInt8 then string rest else .error (mistyped wanted b rest)

/-- A natural number below `limit`. -/
def unsigned (limit : Nat) (wanted : String) : Reader Nat :=
  byFirst fun b rest =>
    if b = '-'.toUInt8 || isDigit b then do
      let (j, n) ← scalarFrom b rest
      match j with
      | .int k =>
        if 0 ≤ k ∧ k < limit then pure (k.toNat, n)
        else .error (.shaped (.outOfRange k wanted) (rest.drop n))
      | j => .error (.shaped (.wrongType j.found wanted) (rest.drop n))
    else .error (mistyped wanted b rest)

def optional {α : Type} (item : Reader α) : Reader (Option α) := fun bs =>
  let n := blanks bs
  match bs.drop n with
  | [] => (item bs).map fun (a, m) => (some a, m)
  | b :: rest =>
    if b = 'n'.toUInt8 then (word (Text.bytes "ull") rest).map fun (_, m) => (none, n + 1 + m)
    else (item bs).map fun (a, m) => (some a, m)

def sequence {α : Type} (item : Reader α) : Reader (List α) :=
  byFirst fun b rest =>
    if b = '['.toUInt8 then list item rest else .error (mistyped "a sequence" b rest)

/-- The number of bytes up to the next item of a list; none if the list ends. -/
def nextItem (first : Bool) (bs : Bytes) : Except Fault (Option Nat) :=
  let n := blanks bs
  match bs.drop n with
  | [] => .error (.next .endInList [])
  | b :: rest =>
    if b = ']'.toUInt8 then .ok none
    else if first then .ok (some n)
    else if b = ','.toUInt8 then
      let m := blanks rest
      match rest.drop m with
      | [] => .error (.next .endInValue [])
      | c :: left =>
        if c = ']'.toUInt8 then .error (.next .trailingComma (c :: left))
        else .ok (some (n + 1 + m))
    else .error (.next .expectedListEnd (b :: rest))

def listEnd (bs : Bytes) : Except Fault Nat :=
  let n := blanks bs
  match bs.drop n with
  | [] => .error (.next .endInList [])
  | b :: rest =>
    if b = ']'.toUInt8 then .ok (n + 1)
    else if b = ','.toUInt8 then
      let left := rest.drop (blanks rest)
      if left.head? = some ']'.toUInt8 then .error (.next .trailingComma left)
      else .error (.next .trailingCharacters left)
    else .error (.next .trailingCharacters (b :: rest))

/-- How a record `σ` is filled: the readers of its fields, whether a field was read, and which must
be. -/
structure Record (σ : Type) where
  name : String
  fields : List (String × (σ → Reader σ))
  holds : σ → String → Bool
  required : List String

namespace Record

variable {σ : Type}

def places (r : Record σ) (first : Bool) (s : σ) :
    List (String × (σ → Reader σ)) → Reader σ
  | [], bs => (listEnd bs).map fun n => (s, n)
  | (name, field) :: fields, bs => do
    match ← nextItem first bs with
    | some n =>
      let (s, m) ← field s (bs.drop n)
      let (s, k) ← places r false s fields (bs.drop (n + m))
      pure (s, n + m + k)
    | none =>
      let n := blanks bs + 1
      if r.required.contains name then
        let place := r.fields.length - (fields.length + 1)
        .error (.shaped (.tooFew place r.name r.fields.length) (bs.drop n))
      else pure (s, n)

/-- The place of a fault that is found right after a key. -/
def afterKey (bs : Bytes) : Bytes :=
  let left := bs.drop (blanks bs)
  if left.head? = some '\x7d'.toUInt8 then left.drop 1 else left

/-- The value of a key. A known key may come once; what an unknown one holds does not matter. -/
def field (r : Record σ) (s : σ) (key : String) : Reader σ := fun bs =>
  match r.fields.lookup key with
  | none => do
    let (_, n) ← colon bs
    let m ← skip (bs.drop n)
    pure (s, n + m)
  | some read =>
    if r.holds s key then .error (.shaped (.duplicateField key) (afterKey bs))
    else do
      let (_, n) ← colon bs
      let (s, m) ← read s (bs.drop n)
      pure (s, n + m)

def read (r : Record σ) (s : σ) : Reader σ :=
  byFirst fun b rest =>
    if b = '['.toUInt8 then r.places true s r.fields rest
    else if b = '\x7b'.toUInt8 then do
      let (s, n) ← object r.field s rest
      match r.required.find? fun name => !r.holds s name with
      | some name => .error (.shaped (.missingField name) (rest.drop n))
      | none => pure (s, n)
    else .error (mistyped ("struct " ++ r.name) b rest)

end Record

end Reader

end TransactionEngine.Json
