import TransactionEngine.Json.Shape
import TransactionEngine.Value.Kind

/-! # Errors

Everything that can fail for a client, one constructor for each cause. A cause has a kind, which
gives the numeric code and the description of an error reply, and words of its own.
-/

namespace TransactionEngine

/-- The kinds of errors a client can tell apart. -/
inductive ErrorKind where
  | invalidArgument
  | notFound
  | alreadyExists
  | outOfMemory
  | unsupported
  | protocol
deriving DecidableEq, Repr

namespace ErrorKind

def code : ErrorKind → Nat
  | invalidArgument => 22
  | notFound => 2
  | alreadyExists => 17
  | outOfMemory => 12
  | unsupported => 95
  | protocol => 71

def description : ErrorKind → String
  | invalidArgument => "invalid argument"
  | notFound => "not found"
  | alreadyExists => "already exists"
  | outOfMemory => "out of memory"
  | unsupported => "unsupported"
  | protocol => "protocol error"

end ErrorKind

/-- What an object type may be able to do. -/
inductive Capability where
  | hash
  | compare
  | compareConnection
  | compareSet
  | dump
  | run
deriving DecidableEq, Repr

def Capability.name : Capability → String
  | hash => "hash"
  | compare => "compare"
  | compareConnection => "connection comparison"
  | compareSet => "set comparison"
  | dump => "dump"
  | run => "run"

/-- Why a program could not be started. -/
inductive SpawnFailure where
  | missing
  | zeroCharacter
  | refused (reason : String)
deriving DecidableEq, Repr

def SpawnFailure.message : SpawnFailure → String
  | missing => "No such file or directory (os error 2)"
  | zeroCharacter => "nul byte found in provided data"
  | refused reason => reason

/-- What is wrong with a message that is well-formed JSON. -/
inductive MessageFault where
  | shape (fault : Json.ShapeFault)
  | registerWithoutName
  | eventWithoutName
  | inputWithoutCode
  | inputWithoutState
  | unknownFlag (flag : String)
  | notOneCommand
  | argumentsNotList (command : String) (found : String)
  | badPosition (found : String)
  | nameNotString
  | namedWithoutValue
  | notAnInteger (found : String)
  | unsupportedLiteral (found : String)
deriving DecidableEq

def MessageFault.message : MessageFault → String
  | shape fault => fault.message
  | registerWithoutName => "REGISTER requires a NAME"
  | eventWithoutName => "event without NAME"
  | inputWithoutCode => "input without CODE"
  | inputWithoutState => "input without STATE"
  | unknownFlag flag => "unknown flag " ++ Text.quoted flag
  | notOneCommand => "a command entry must have exactly one key"
  | argumentsNotList command found =>
    command ++ ": arguments must be an array, got " ++ found
  | badPosition found => "bad stack position " ++ found
  | nameNotString => "a named value needs a string name"
  | namedWithoutValue => "a named value needs a value"
  | notAnInteger found => found ++ " is not a 64-bit integer"
  | unsupportedLiteral found => "unsupported literal " ++ found

inductive Error where
  -- values and objects
  | wrongKind (wanted found : Kind)
  | nullReference
  | unsupported (type : String) (capability : Capability)
  -- the stack
  | outOfMemory
  | popBelowFrame (count available : Nat)
  | aboveTop (slot : Nat)
  | outsideStack (position : Int64) (top : Nat)
  | belowFrame (position : Int64)
  | frameAbove (saved frame : Nat)
  -- commands
  | tooFewArguments (command : String) (least found : Nat)
  | wrongArgumentCount (command : String) (wanted found : Nat)
  | arithmetic (command : String) (left right : Int64)
  | unordered (command : String) (left right : Kind)
  | logLevel (level : Int64)
  | notStarted (path : String) (failure : SpawnFailure)
  | takesArguments (command : String) (wanted found : Nat)
  | takesNoArguments (command : String)
  | takesAtMostOne (command : String)
  | negativeCount (command : String) (count : Int64)
  | pushCount (count values : Nat)
  | storeIntoLiteral
  | backwardsJump (delta : Int64)
  -- names
  | unknownCommand (name : String)
  | unknownTransaction (name : String)
  | unknownEvent (name : String)
  | withoutFlags (transaction : String)
  -- combos
  | comboWithoutCodes (name : String)
  | comboRepeats (name : String) (code : UInt16)
  | comboTaken (codes : List UInt16) (holder : String)
  | unknownCombo (codes : List UInt16)
  -- messages
  | badText (words : String)
  | badMessage (fault : MessageFault)
  -- what an object says that is defined elsewhere
  | reported (kind : ErrorKind) (cause : String)
deriving DecidableEq

namespace Error

def kind : Error → ErrorKind
  | outOfMemory => .outOfMemory
  | unsupported .. => .unsupported
  | notStarted _ .missing => .notFound
  | unknownCommand _ | unknownTransaction _ | unknownEvent _ | unknownCombo _ => .notFound
  | comboTaken .. => .alreadyExists
  | badText _ | badMessage _ => .protocol
  | reported kind _ => kind
  | _ => .invalidArgument

/-- A list of key codes as messages show it. -/
def showCodes (codes : List UInt16) : String :=
  Text.bracketed (codes.map fun code => toString code.toNat)

def showInt (n : Int64) : String :=
  String.ofList (Json.intChars n.toInt)

/-- The cause of an error in words; lack of memory has none. -/
def cause : Error → String
  | wrongKind wanted found => "expected " ++ wanted.name ++ ", got " ++ found.name
  | nullReference => "null object reference"
  | unsupported type capability => type ++ " has no " ++ capability.name ++ " capability"
  | outOfMemory => ""
  | popBelowFrame count available =>
    "cannot pop " ++ toString count ++ " slots, only " ++ toString available ++ " above the frame"
  | aboveTop slot => "slot " ++ toString slot ++ " is above the top"
  | outsideStack position top =>
    "position " ++ showInt position ++ " outside stack of " ++ toString top
  | belowFrame position => "position " ++ showInt position ++ " is below the current frame"
  | frameAbove saved frame =>
    "cannot restore frame " ++ toString saved ++ " from inside frame " ++ toString frame
  | tooFewArguments command least found =>
    command ++ " needs at least " ++ toString least ++ " argument(s), got " ++ toString found
  | wrongArgumentCount command wanted found =>
    command ++ " takes " ++ toString wanted ++ " argument(s), got " ++ toString found
  | arithmetic command left right =>
    command ++ ": " ++ showInt left ++ " and " ++ showInt right ++ " overflow or divide by zero"
  | unordered command left right =>
    command ++ ": cannot order " ++ left.name ++ " against " ++ right.name
  | logLevel level => "log level " ++ showInt level ++ " not in 1..=5"
  | notStarted path failure => "exec " ++ path ++ ": " ++ failure.message
  | takesArguments command wanted found =>
    command ++ ": takes " ++ toString wanted ++ (if wanted = 1 then " argument" else " arguments") ++
      ", got " ++ toString found
  | takesNoArguments command => command ++ ": takes no arguments"
  | takesAtMostOne command => command ++ ": takes at most one argument"
  | negativeCount command count => command ++ ": count " ++ showInt count ++ " is negative"
  | pushCount count values => "push: count " ++ toString count ++ " but " ++ toString values ++ " values"
  | storeIntoLiteral => "store: destination must be a stack position"
  | backwardsJump delta => "jump of " ++ showInt delta ++ " is backwards"
  | unknownCommand name => "command " ++ Text.quoted name
  | unknownTransaction name => "transaction " ++ Text.quoted name
  | unknownEvent name => "event " ++ Text.quoted name
  | withoutFlags transaction =>
    "transaction " ++ Text.quoted transaction ++ " has neither EXEC nor REGISTER"
  | comboWithoutCodes name => "hotkey " ++ Text.quoted name ++ " has no codes"
  | comboRepeats name code =>
    "hotkey " ++ Text.quoted name ++ " repeats code " ++ toString code.toNat
  | comboTaken codes holder =>
    "combo " ++ showCodes codes ++ " is taken by " ++ Text.quoted holder
  | unknownCombo codes => "combo " ++ showCodes codes
  | badText words => words
  | badMessage fault => fault.message
  | reported .outOfMemory _ => ""
  | reported _ cause => cause

def code (e : Error) : Nat :=
  e.kind.code

def description (e : Error) : String :=
  e.kind.description

def display (e : Error) : String :=
  if e.kind = .outOfMemory then e.description else e.description ++ ": " ++ e.cause

end Error

end TransactionEngine
