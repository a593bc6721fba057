import PolicyWarden.CommandLine.Startup

/-!
The program: its words, its environment and its files come from the system.
-/

namespace PolicyWarden.Program

/-- The number of an error; some come with a sign, which is dropped. -/
def errorNumber (code : UInt32) : Nat :=
  if code < 0x80000000 then code.toNat else (0 - code).toNat

def errorText (words : String) (code : UInt32) : String :=
  words ++ " (os error " ++ toString (errorNumber code) ++ ")"

def reasonText : IO.Error → String
  | .noFileOrDirectory _ code _ => errorText "No such file or directory" code
  | .permissionDenied _ code _ => errorText "Permission denied" code
  | .inappropriateType _ code _ =>
      errorText (if errorNumber code = 20 then "Not a directory" else "Is a directory") code
  | .invalidArgument _ code _ => errorText "File name too long" code
  | .userError _ => "stream did not contain valid UTF-8"
  | other => toString other

def readFile (path : String) : IO (Except String String) := do
  try
    return .ok (← IO.FS.readFile path)
  catch error =>
    return .error (reasonText error)

def environment : IO CommandLine.Environment := do
  let pairs ← CommandLine.Parameter.all.filterMapM fun parameter => do
    match parameter.environmentName? with
    | some variableName => return (← IO.getEnv variableName).map (variableName, ·)
    | none => return none
  return CommandLine.Environment.ofLookup fun name => pairs.lookup name

end PolicyWarden.Program

def main (words : List String) : IO UInt32 := do
  let environment ← PolicyWarden.Program.environment
  let exit ← PolicyWarden.CommandLine.run PolicyWarden.Program.readFile words environment
  IO.print exit.output
  IO.eprint exit.complaint
  return exit.code.toUInt32
