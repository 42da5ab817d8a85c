import ManifestRelay.Binary.Width

/-!
# Flags of the command line

A flag is given as `--name value` or `--name=value`, at most once; without it
the environment variable of the flag counts, and then its default.  Anything
else on the command line is refused, except a request for help.
-/

namespace ManifestRelay.CommandLine

inductive Kind where
  | text
  /-- A text that is not empty. -/
  | path
  | integer (least greatest : Int)
  /-- A natural number of 64 bits, with or without a plus sign. -/
  | natural
deriving DecidableEq, Repr

structure Flag where
  name : String
  variableName : String
  kind : Kind
  fallback : Option String
deriving DecidableEq, Repr

inductive UsageError where
  | missingFlag
  /-- The value is missing, or empty where it must not be. -/
  | missingValue
  | badValue
  | unknownArgument
  | repeatedFlag
  | unneededValue
  | helpRequested
deriving DecidableEq, Repr, Inhabited

def UsageError.message : UsageError → String
  | .missingFlag => "a required flag is missing"
  | .missingValue => "a flag has no value"
  | .badValue => "the value of a flag cannot be used"
  | .unknownArgument => "there is an argument that is not known"
  | .repeatedFlag => "a flag is given twice"
  | .unneededValue => "a flag has a value that takes none"
  | .helpRequested => "flags are given as --name value or --name=value"

inductive Value where
  | text (text : String)
  | number (n : Int)
deriving DecidableEq, Repr

def digits? (text : List Char) : Option Nat :=
  if text ≠ [] ∧ text.all Char.isDigit then
    some (text.foldl (fun n c => 10 * n + (c.toNat - '0'.toNat)) 0)
  else none

def integer? : List Char → Option Int
  | '+' :: rest => (digits? rest).map Int.ofNat
  | '-' :: rest => (digits? rest).map fun n => -Int.ofNat n
  | text => (digits? text).map Int.ofNat

/-- A natural number with or without a plus sign. -/
def natural? : List Char → Option Nat
  | '+' :: rest => digits? rest
  | text => digits? text

def within (least greatest n : Int) : Option Int :=
  if least ≤ n ∧ n ≤ greatest then some n else none

namespace Kind

/-- Numbers of 64 bits with a sign. -/
def word : Kind := .integer (Binary.leastInteger 64) (Binary.greatestInteger 64)

/-- Numbers of 32 bits without a sign. -/
def halfWord : Kind := .integer 0 (Binary.greatestNatural 32)

def port : Kind := .integer 0 (Binary.greatestNatural 16)

def read (kind : Kind) (raw : String) : Except UsageError Value :=
  match kind with
  | .text => .ok (.text raw)
  | .path => if raw = "" then .error .missingValue else .ok (.text raw)
  | .integer least greatest =>
      match (integer? raw.toList).bind (within least greatest) with
      | some n => .ok (.number n)
      | none => .error .badValue
  | .natural =>
      match (natural? raw.toList).bind fun n => within 0 (Binary.greatestNatural 64) n with
      | some n => .ok (.number n)
      | none => .error .badValue

end Kind

abbrev Assignments := List (String × Value)

structure Reading where
  values : Assignments
  /-- The flag that was read last, and its value if that was read too. -/
  pending : Option (Flag × Option String)

namespace Reading

def assign (r : Reading) (flag : Flag) (raw : String) : Except UsageError Reading :=
  if (r.values.lookup flag.name).isSome then .error .repeatedFlag
  else do
    let value ← flag.kind.read raw
    return ⟨r.values ++ [(flag.name, value)], none⟩

/-- Be done with the flag that was read last. -/
def settle (r : Reading) : Except UsageError Reading :=
  match r.pending with
  | none => .ok r
  | some (_, none) => .error .missingValue
  | some (flag, some raw) => r.assign flag raw

end Reading

inductive Shape where
  | separator
  | long (name : String) (value : Option String)
  | short (letters : List Char)
  | plain
deriving DecidableEq, Repr

def Shape.of (argument : String) : Shape :=
  match argument.toList with
  | ['-', '-'] => .separator
  | '-' :: '-' :: rest =>
      let value := match rest.dropWhile (· != '=') with
        | _ :: value => some (String.ofList value)
        | [] => none
      .long (String.ofList (rest.takeWhile (· != '='))) value
  | '-' :: letter :: rest => .short (letter :: rest)
  | _ => .plain

def readArgument (flags : List Flag) (r : Reading) (argument : String) :
    Except UsageError Reading :=
  match Shape.of argument with
  | .separator => .ok r
  | .long name value =>
      match flags.find? (·.name == name), value with
      | some flag, some raw => do (← r.settle).assign flag raw
      | some flag, none => do return { (← r.settle) with pending := some (flag, none) }
      | none, some _ => .error (if name = "help" then .unneededValue else .unknownArgument)
      | none, none =>
          if name = "help" then r.settle.bind fun _ => .error .helpRequested
          else .error .unknownArgument
  | .short letters =>
      if letters.head? = some 'h' then r.settle.bind fun _ => .error .helpRequested
      else .error .unknownArgument
  | .plain =>
      match r.pending with
      | some (flag, none) => .ok { r with pending := some (flag, some argument) }
      | _ => .error .unknownArgument

/-- Read arguments; nothing may follow the separator. -/
def readArguments (flags : List Flag) (r : Reading) : List String → Except UsageError Reading
  | [] => r.settle
  | argument :: rest => do
      let r ← readArgument flags r argument
      if Shape.of argument = .separator then
        if rest = [] then r.settle else throw .unknownArgument
      else readArguments flags r rest

/-- Read the variable of a flag that was not given. -/
def readVariable (environment : String → Option String) (values : Assignments) (flag : Flag) :
    Except UsageError Assignments :=
  match values.lookup flag.name, environment flag.variableName with
  | none, some raw => do return values ++ [(flag.name, ← flag.kind.read raw)]
  | _, _ => .ok values

def readDefault (values : Assignments) (flag : Flag) : Except UsageError Assignments :=
  match values.lookup flag.name, flag.fallback with
  | none, some raw => do return values ++ [(flag.name, ← flag.kind.read raw)]
  | none, none => .error .missingFlag
  | some _, _ => .ok values

def readFlags (flags : List Flag) (arguments : List String)
    (environment : String → Option String) : Except UsageError Assignments := do
  let given := (← readArguments flags ⟨[], none⟩ arguments).values
  let known ← flags.foldlM (readVariable environment) given
  flags.foldlM readDefault known

end ManifestRelay.CommandLine
