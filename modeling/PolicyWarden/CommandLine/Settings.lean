import PolicyWarden.Dispatch.Call

/-!
What can be chosen when the controller is started: switches, which are there or not, and parameters,
each with a type of values of its own.
-/

namespace PolicyWarden.CommandLine

inductive LogFormat where
  | plain
  | json
deriving DecidableEq, Repr

inductive Switch where
  | manifest
  | evict
  | help
  | version
deriving DecidableEq, Repr

namespace Switch

def all : List Switch :=
  [.manifest, .evict, .help, .version]

def name : Switch → String
  | .manifest => "crd"
  | .evict => "evict-on-compile-failure"
  | .help => "help"
  | .version => "version"

def letter? : Switch → Option Char
  | .manifest => none
  | .evict => none
  | .help => some 'h'
  | .version => some 'V'

def text (switch : Switch) : String :=
  "--" ++ switch.name

def named? (name : String) : Option Switch :=
  all.find? (·.name = name)

def lettered? (letter : Char) : Option Switch :=
  all.find? (·.letter? = some letter)

end Switch

inductive Parameter where
  | area
  | schemaFile
  | maxConcurrent
  | logFormat
deriving DecidableEq, Repr

namespace Parameter

@[reducible] def Value : Parameter → Type
  | .area => String
  | .schemaFile => String
  | .maxConcurrent => Nat
  | .logFormat => LogFormat

def all : List Parameter :=
  [.area, .schemaFile, .maxConcurrent, .logFormat]

def name : Parameter → String
  | .area => "namespace"
  | .schemaFile => "schema-file"
  | .maxConcurrent => "max-concurrent-reconciles"
  | .logFormat => "log-format"

/-- The parameter as messages show it: its name, and the name again in place of a value. -/
def text (parameter : Parameter) : String :=
  let placeholder := parameter.name.map fun letter => if letter = '-' then '_' else letter.toUpper
  "--" ++ parameter.name ++ " <" ++ placeholder ++ ">"

def named? (name : String) : Option Parameter :=
  all.find? (·.name = name)

/-- The environment variable that stands in for the parameter where it is left out. -/
def environmentName? : Parameter → Option String
  | .area => some "LATTICE_AUTHZ_NAMESPACE"
  | .schemaFile => some "LATTICE_AUTHZ_SCHEMA_FILE"
  | .maxConcurrent => none
  | .logFormat => none

end Parameter

abbrev Environment := Parameter → Option String

def Environment.ofLookup (lookup : String → Option String) : Environment :=
  fun parameter => parameter.environmentName?.bind lookup

structure Settings where
  manifest : Bool := false
  area : Option String := none
  schemaFile : Option String := none
  onRefusal : RefusalPolicy := .retainPrevious
  dispatch : DispatchConfig := {}
  logFormat : LogFormat := .plain

end PolicyWarden.CommandLine
