import PolicyWarden.CommandLine.Settings

/-!
What is printed when help or the version is asked for. Of the two helps, the detailed one has room
between its entries and tells what the values of a parameter mean.
-/

namespace PolicyWarden.CommandLine.Help

def programName : String := "lattice-authz"

def version : String :=
  programName ++ " 0.1.0\n"

structure Entry where
  heading : String
  about : String
  values : List (String × String) := []
  remark : Option String := none

def ofSwitch (switch : Switch) (about : String) : Entry where
  heading := match switch.letter? with
    | some letter => "  -" ++ letter.toString ++ ", " ++ switch.text
    | none => "      " ++ switch.text
  about := about

/-- The entry of a parameter. Its remark names the variable that stands in for it, with the value
that it has. -/
def ofParameter (environment : Environment) (parameter : Parameter) (about : String)
    (default : Option String) (values : List (String × String)) : Entry where
  heading := "      " ++ parameter.text
  about := about
  values := values
  remark := match parameter.environmentName?, default with
    | some variableName, _ =>
        some ("[env: " ++ variableName ++ "=" ++ (environment parameter).getD "" ++ "]")
    | none, some value => some ("[default: " ++ value ++ "]")
    | none, none => none

def entries (environment : Environment) (detailed : Bool) : List Entry := [
  ofSwitch .manifest "Generate the AuthorizationPolicy CRD manifest and exit",
  ofParameter environment .area "Only watch this namespace (default: all namespaces)" none [],
  ofParameter environment .schemaFile "Cedar schema file used for strict policy validation" none [],
  ofSwitch .evict (
    "Drop a policy when a newer revision fails to compile instead of keeping the last good one"),
  ofParameter environment .maxConcurrent "Maximum reconciles in flight at once" (some "16") [],
  ofParameter environment .logFormat "Log output format" (some "plain")
    [("plain", "Human-readable lines"), ("json", "JSON lines with span context")],
  ofSwitch .help (
    if detailed then "Print help (see a summary with '-h')"
    else "Print help (see more with '--help')"),
  ofSwitch .version "Print version"]

def margin : String := "          "

def indented (text : String) : String :=
  text.replace "\n" ("\n" ++ margin)

/-- The values of an entry, each on a line with what it means; the meanings stand in one column. -/
def valueList (values : List (String × String)) : String :=
  let width := (values.map fun (value, _) => value.length).foldl max 0
  String.join (values.map fun (value, meaning) =>
    "\n" ++ margin ++ "- " ++ value ++ ":" ++
      String.ofList (List.replicate (width - value.length + 1) ' ') ++ meaning)

def Entry.detailedText (entry : Entry) : String :=
  entry.heading ++ "\n" ++ margin ++ entry.about ++
    (if entry.values.isEmpty then ""
      else "\n\n" ++ margin ++ "Possible values:" ++ valueList entry.values) ++
    ((entry.remark.map fun remark => indented ("\n\n" ++ remark)).getD "") ++ "\n"

def Entry.shortText (entry : Entry) : String :=
  let values := if entry.values.isEmpty then []
    else ["[possible values: " ++ ", ".intercalate (entry.values.map (·.1)) ++ "]"]
  entry.heading ++ "\n" ++ margin ++
    indented (" ".intercalate (entry.about :: entry.remark.toList ++ values)) ++ "\n"

def text (environment : Environment) (detailed : Bool) : String :=
  let shown := (entries environment detailed).map fun entry =>
    if detailed then entry.detailedText else entry.shortText
  "AuthorizationPolicy controller feeding compiled Cedar policies to the request path\n\n" ++
    "Usage: " ++ programName ++ " [OPTIONS]\n\nOptions:\n" ++
    (if detailed then "\n" else "").intercalate shown

end PolicyWarden.CommandLine.Help
