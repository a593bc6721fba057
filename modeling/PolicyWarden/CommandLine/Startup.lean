import PolicyWarden.CommandLine.Help
import PolicyWarden.CommandLine.Reading
import PolicyWarden.Cedar.Compiler
import PolicyWarden.Resource.Manifest
import PolicyWarden.Yaml.Printer

/-!
From the command line to the controller, or to an end before that. How files are read is left to the
caller.
-/

namespace PolicyWarden.CommandLine

structure Exit where
  code : Nat
  output : String := ""
  complaint : String := ""
deriving DecidableEq, Repr

namespace Exit

def ofHalt (environment : Environment) : Halt → Exit
  | .usage error =>
      { code := 2, complaint := error.text ++ "\n\nFor more information, try '--help'.\n" }
  | .help detailed => { code := 0, output := Help.text environment detailed }
  | .version => { code := 0, output := Help.version }

def ofManifest : Exit where
  code := 0
  output := Yaml.render Manifest.document ++ "\n"

def ofFailure (message : String) : Exit where
  code := 1
  complaint := "Error: " ++ message ++ "\n"

end Exit

structure Controller where
  compiler : Cedar.Compiler
  onRefusal : RefusalPolicy
  dispatch : DispatchConfig
  area : Option String

/-- Sets a controller up; `schema` is the text of the schema file, or why it could not be read. -/
def Controller.ofSettings (settings : Settings) (schema : Option (Except String String)) :
    Except String Controller := do
  let schema ← match settings.schemaFile, schema with
    | some path, some (.error reason) =>
        throw ("Failed to read schema file " ++ path ++ ": " ++ reason)
    | some _, some (.ok source) => pure (some source)
    | _, _ => pure none
  let compiler ← (Cedar.Compiler.ofSchema? schema).mapError SetupError.text
  return {
    compiler
    onRefusal := settings.onRefusal
    dispatch := settings.dispatch
    area := settings.area }

def Controller.withoutCluster (_ : Controller) : String :=
  "Failed to create Kubernetes client: no cluster is configured"

/-- Runs the program where there is no cluster. The schema file is the only file it reads, and it
does so only when a controller is to be set up. -/
def run {m : Type → Type} [Monad m] (readFile : String → m (Except String String))
    (words : List String) (environment : Environment) : m Exit := do
  match parse words environment with
  | .error halt => return Exit.ofHalt environment halt
  | .ok settings =>
      if settings.manifest then return Exit.ofManifest
      let schema ← match settings.schemaFile with
        | some path => do pure (some (← readFile path))
        | none => pure none
      match Controller.ofSettings settings schema with
      | .error message => return Exit.ofFailure message
      | .ok controller => return Exit.ofFailure controller.withoutCluster

end PolicyWarden.CommandLine
