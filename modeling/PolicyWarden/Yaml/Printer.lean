import PolicyWarden.Json.Printer

/-!
Documents as YAML in block style: a member of an object or an element of an array to a line, two
blanks deeper for what is inside an object. Texts are plain where they can be, texts of several
lines stand as literal blocks, and all others between single quotation marks.
-/

namespace PolicyWarden.Yaml

def indentation (depth : Nat) : String :=
  String.ofList (List.replicate depth ' ')

def reservedWords : List String :=
  ["", "~", "null", "Null", "NULL", "true", "True", "TRUE", "false", "False", "FALSE", "y", "n",
    "yes", "no", "on", "off", ".nan", ".inf", "-.inf"]

def leadingMarks : List Char :=
  ['-', '?', ':', ',', '[', ']', '\x7b', '\x7d', '#', '&', '*', '!', '|', '>', '\'', '"', '%', '@',
    Char.ofNat 0x60, ' ']

/-- Whether a comment or a name of a member seems to begin within the text. -/
def breaksPlain : List Char → Bool
  | ':' :: ' ' :: _ => true
  | [':'] => true
  | ' ' :: '#' :: _ => true
  | [' '] => true
  | _ :: rest => breaksPlain rest
  | [] => false

/-- Whether the text might be taken for a number: a digit comes first, or right after a sign or a
point. -/
def looksNumeric : List Char → Bool
  | '+' :: second :: _ => second.isDigit || second = '.'
  | '.' :: second :: _ => second.isDigit
  | first :: _ => first.isDigit
  | [] => false

def isPlain (value : String) : Bool :=
  !reservedWords.contains value && !(value.toList.head?.any leadingMarks.contains) &&
    !looksNumeric value.toList && !breaksPlain value.toList

def block (depth : Nat) (value : String) : String :=
  let lines := value.splitOn "\n"
  let (style, lines) := if lines.getLast? = some "" then ("|", lines.dropLast) else ("|-", lines)
  style ++ "\n" ++ String.join (lines.map fun line =>
    if line.isEmpty then "\n" else indentation depth ++ line ++ "\n")

def scalar (depth : Nat) : Json → String
  | .text value =>
      if value.contains '\n' then block depth value
      else if isPlain value then value ++ "\n"
      else "'" ++ value.replace "'" "''" ++ "'\n"
  | other => other.render ++ "\n"

mutual
def member (depth : Nat) : Json → String
  | .object [] => " \x7b\x7d\n"
  | .object ((name, value) :: rest) => "\n" ++ indentation (depth + 2) ++ name ++ ":" ++
      member (depth + 2) value ++ members (depth + 2) rest
  | .array [] => " []\n"
  | .array (first :: rest) => "\n" ++ elements depth (first :: rest)
  | .null => " null\n"
  | .boolean value => " " ++ scalar depth (.boolean value)
  | .integer value => " " ++ scalar depth (.integer value)
  | .real bits => " " ++ scalar depth (.real bits)
  | .text value => " " ++ scalar (depth + 2) (.text value)

def members (depth : Nat) : List (String × Json) → String
  | [] => ""
  | (name, value) :: rest =>
      indentation depth ++ name ++ ":" ++ member depth value ++ members depth rest

def elements (depth : Nat) : List Json → String
  | [] => ""
  | first :: rest => indentation depth ++ "- " ++ element (depth + 2) first ++ elements depth rest

/-- A value behind a dash; the first member of an object stands on the line of the dash. -/
def element (depth : Nat) : Json → String
  | .object [] => "\x7b\x7d\n"
  | .object ((name, value) :: rest) => name ++ ":" ++ member depth value ++ members depth rest
  | .array [] => "[]\n"
  | .array (first :: rest) => "- " ++ element (depth + 2) first ++ elements depth rest
  | .null => "null\n"
  | .boolean value => scalar depth (.boolean value)
  | .integer value => scalar depth (.integer value)
  | .real bits => scalar depth (.real bits)
  | .text value => scalar depth (.text value)
end

def render : Json → String
  | .object [] => "\x7b\x7d\n"
  | .object members => Yaml.members 0 members
  | .array [] => "[]\n"
  | .array values => elements 0 values
  | other => scalar 0 other

end PolicyWarden.Yaml
