import PolicyWarden.CommandLine.Settings
import PolicyWarden.Number.Width

/-!
Reading a command line, one word after the other. The value of a parameter is looked at only when
the word after it turns out to belong to something else: a switch, another parameter or nothing at
all. So of two faults it is not always the first that is told of.
-/

namespace PolicyWarden.CommandLine

/-! ## Ways to end early -/

inductive UsageError where
  | unexpectedArgument (word : String)
  | unexpectedValue (switch : Switch) (value : String)
  | missingValue (parameter : Parameter)
  | repeatedSwitch (switch : Switch)
  | repeatedParameter (parameter : Parameter)
  | invalidValue (parameter : Parameter) (value : String) (reason : Option String)
deriving DecidableEq, Repr

def UsageError.text : UsageError → String
  | .unexpectedArgument word => "error: unexpected argument '" ++ word ++ "' found"
  | .unexpectedValue switch value =>
      "error: unexpected value '" ++ value ++ "' for '" ++ switch.text ++
        "' found; no more were expected"
  | .missingValue parameter =>
      "error: a value is required for '" ++ parameter.text ++ "' but none was supplied"
  | .repeatedSwitch switch =>
      "error: the argument '" ++ switch.text ++ "' cannot be used multiple times"
  | .repeatedParameter parameter =>
      "error: the argument '" ++ parameter.text ++ "' cannot be used multiple times"
  | .invalidValue parameter value reason =>
      "error: invalid value '" ++ value ++ "' for '" ++ parameter.text ++ "'" ++
        (reason.map (": " ++ ·)).getD ""

inductive Halt where
  | usage (error : UsageError)
  | help (detailed : Bool)
  | version
deriving DecidableEq, Repr

/-! ## Values -/

/-- The number whose digits follow on those of `count`. The fault that comes first counts, at one
place a character that is no digit. -/
def countDigits (count : Nat) : List Char → Except String Nat
  | [] => .ok count
  | digit :: rest =>
      if !digit.isDigit then .error "invalid digit found in string"
      else
        let count := 10 * count + (digit.toNat - '0'.toNat)
        if count < Number.wordCount then countDigits count rest
        else .error "number too large to fit in target type"

def parseCount (text : String) : Except String Nat :=
  match text.toList with
  | [] => .error "cannot parse integer from empty string"
  | ['+'] => .error "invalid digit found in string"
  | '+' :: digits => countDigits 0 digits
  | digits => countDigits 0 digits

/-- The value that a text gives to a parameter. An empty text is as good as none, except for a
namespace and for a number. -/
def Parameter.parse : (parameter : Parameter) → String → Except UsageError parameter.Value
  | .area, value => .ok value
  | .schemaFile, value =>
      if value.isEmpty then .error (.missingValue .schemaFile) else .ok value
  | .maxConcurrent, value =>
      (parseCount value).mapError fun reason => .invalidValue .maxConcurrent value (some reason)
  | .logFormat, "plain" => .ok .plain
  | .logFormat, "json" => .ok .json
  | .logFormat, "" => .error (.missingValue .logFormat)
  | .logFormat, value => .error (.invalidValue .logFormat value none)

/-! ## What has been given -/

structure Given where
  manifest : Bool := false
  evict : Bool := false
  value? : (parameter : Parameter) → Option parameter.Value := fun _ => none

namespace Given

def assign (given : Given) (parameter : Parameter) (value : parameter.Value) : Given :=
  { given with
    value? := fun other =>
      if same : other = parameter then some (same ▸ value) else given.value? other }

def accept (given : Given) (parameter : Parameter) (value : String) : Except Halt Given :=
  if (given.value? parameter).isSome then .error (.usage (.repeatedParameter parameter))
  else ((parameter.parse value).mapError Halt.usage).map (given.assign parameter)

/-- Takes a switch. Help and version put an end to the reading; `detailed` tells which help it is.
-/
def turnOn (given : Given) (detailed : Bool) : Switch → Except Halt Given
  | .manifest =>
      if given.manifest then .error (.usage (.repeatedSwitch .manifest))
      else .ok { given with manifest := true }
  | .evict =>
      if given.evict then .error (.usage (.repeatedSwitch .evict))
      else .ok { given with evict := true }
  | .help => .error (.help detailed)
  | .version => .error .version

def complete (environment : Environment) (given : Given) (parameter : Parameter) :
    Except Halt Given :=
  match given.value? parameter, environment parameter with
  | none, some value => given.accept parameter value
  | _, _ => .ok given

def settings (given : Given) : Settings where
  manifest := given.manifest
  area := given.value? .area
  schemaFile := given.value? .schemaFile
  onRefusal := if given.evict then .evict else .retainPrevious
  dispatch := { maxConcurrent := (given.value? .maxConcurrent).getD 16 }
  logFormat := (given.value? .logFormat).getD .plain

end Given

/-! ## Words -/

inductive Word where
  | separator
  | long (name : String) (value : Option String)
  /-- A letter behind a single dash; what follows on the letter does not matter. -/
  | short (letter : Char)
  | plain (text : String)
deriving DecidableEq, Repr

def Word.ofText (text : String) : Word :=
  match text.toList with
  | ['-', '-'] => .separator
  | '-' :: '-' :: rest =>
      match rest.span (· ≠ '=') with
      | (name, []) => .long (String.ofList name) none
      | (name, _ :: value) => .long (String.ofList name) (some (String.ofList value))
  | '-' :: letter :: _ => .short letter
  | _ => .plain text

/-! ## Reading -/

structure Reading where
  given : Given := {}
  /-- The parameter named last, and its value if there was one since; not looked at so far. -/
  pending : Option (Parameter × Option String) := none

namespace Reading

def settle (reading : Reading) : Except Halt Given :=
  match reading.pending with
  | none => .ok reading.given
  | some (parameter, none) => .error (.usage (.missingValue parameter))
  | some (parameter, some value) => reading.given.accept parameter value

def stepSwitch (reading : Reading) (detailed : Bool) (switch : Switch) : Except Halt Reading := do
  let given ← reading.settle
  return { given := ← given.turnOn detailed switch }

def stepParameter (reading : Reading) (parameter : Parameter) (value : Option String) :
    Except Halt Reading := do
  let given ← reading.settle
  match value with
  | none => return { given, pending := some (parameter, none) }
  | some value => return { given := ← given.accept parameter value }

/-- The reading after one more word. A word without a meaning ends it at once, before the pending
value is looked at. -/
def step (reading : Reading) : Word → Except Halt Reading
  | .separator => .ok reading
  | .long name value =>
      match Switch.named? name, Parameter.named? name, value with
      | some switch, _, none => reading.stepSwitch true switch
      | some switch, _, some value => .error (.usage (.unexpectedValue switch value))
      | none, some parameter, value => reading.stepParameter parameter value
      | none, none, _ => .error (.usage (.unexpectedArgument ("--" ++ name)))
  | .short letter =>
      match Switch.lettered? letter with
      | some switch => reading.stepSwitch false switch
      | none => .error (.usage (.unexpectedArgument (String.ofList ['-', letter])))
  | .plain text =>
      match reading.pending with
      | some (parameter, none) =>
          .ok { reading with pending := some (parameter, some text) }
      | _ => .error (.usage (.unexpectedArgument text))

/-- The reading after all words. There is nothing that a word behind the separator could be. -/
def steps (reading : Reading) : List String → Except Halt Reading
  | [] => .ok reading
  | first :: rest =>
      match Word.ofText first, rest with
      | .separator, [] => .ok reading
      | .separator, second :: _ => .error (.usage (.unexpectedArgument second))
      | word, rest => do (← reading.step word).steps rest

end Reading

/-- The settings that a command line asks for. The environment is asked only where the command line
is in order. -/
def parse (words : List String) (environment : Environment) : Except Halt Settings := do
  let reading ← ({} : Reading).steps words
  let given ← reading.settle
  return (← Parameter.all.foldlM (Given.complete environment) given).settings

end PolicyWarden.CommandLine
