import PolicyWarden.Json.Basic
import PolicyWarden.Number.Shortest

/-!
JSON documents as text, on one line and without blanks.
-/

namespace PolicyWarden.Json

def escape (character : Char) : String :=
  if character = '"' then "\\\""
  else if character = '\\' then "\\\\"
  else if character.val < 0x20 then
    let digits := Nat.toDigits 16 character.toNat
    "\\u" ++ String.ofList (List.replicate (4 - digits.length) '0' ++ digits)
  else character.toString

def quote (value : String) : String :=
  value.foldl (fun written character => written ++ escape character) "\"" ++ "\""

/-- A number whose bits are those of no finite number has no form in JSON and is written as null. -/
def renderReal (bits : UInt64) : String :=
  match Number.Binary64.ofBits bits with
  | .finite value =>
      let decimal := value.shortest
      (if value.negative then "-" else "") ++
        if decimal.exponent.natAbs > 30 then
          toString decimal.digits ++ "e" ++ toString decimal.exponent
        else decimal.positional
  | _ => "null"

mutual
def render : Json → String
  | .null => "null"
  | .boolean value => if value then "true" else "false"
  | .integer value => toString value
  | .real bits => renderReal bits
  | .text value => quote value
  | .array elements => "[" ++ ",".intercalate (renderElements elements) ++ "]"
  | .object members => "\x7b" ++ ",".intercalate (renderMembers members) ++ "\x7d"

def renderElements : List Json → List String
  | [] => []
  | element :: rest => element.render :: renderElements rest

def renderMembers : List (String × Json) → List String
  | [] => []
  | (name, value) :: rest => (quote name ++ ":" ++ value.render) :: renderMembers rest
end

end PolicyWarden.Json
