import PolicyWarden.Json.Basic
import PolicyWarden.Number.Shortest
import PolicyWarden.Number.Width
import PolicyWarden.Timestamp

/-!
Reading typed values from JSON documents. A reader takes a document and gives the value or the first
fault, which says what was found and what was asked for. Members of an object are read by their
names, so that their order and further members make no difference.
-/

namespace PolicyWarden.Json

inductive Fault where
  | missing (name : String)
  | repeated (name : String)
  | kind (found : Json) (wanted : String)
  | tooLarge (found : Int) (wanted : String)
  | length (count : Nat) (wanted : String)
  | timestamp (fault : Timestamp.Fault)
deriving Repr

/-- Marks that change no text but the look of their neighbours, or have no look. -/
def isUnprintable (character : Char) : Bool :=
  let code := character.toNat
  code < 0x20 || (0x7F ≤ code && code < 0xA0) || code = 0xAD || (0x300 ≤ code && code < 0x370) ||
    (0x200B ≤ code && code < 0x2010) || (0x2028 ≤ code && code < 0x202F) ||
    (0x2060 ≤ code && code < 0x2070) || (0xE000 ≤ code && code < 0xF900) || code = 0xFEFF

def showCharacter (character : Char) : String :=
  match character with
  | '"' => "\\\""
  | '\\' => "\\\\"
  | '\n' => "\\n"
  | '\r' => "\\r"
  | '\t' => "\\t"
  | '\x00' => "\\0"
  | character =>
      if isUnprintable character then
        "\\u\x7b" ++ String.ofList (Nat.toDigits 16 character.toNat) ++ "\x7d"
      else character.toString

def describe : Json → String
  | .null => "null"
  | .boolean value => if value then "boolean `true`" else "boolean `false`"
  | .integer value => "integer `" ++ toString value ++ "`"
  | .real bits => "floating point `" ++ Number.positional bits ++ "`"
  | .text value => "string \"" ++ String.join (value.toList.map showCharacter) ++ "\""
  | .array _ => "sequence"
  | .object _ => "map"

def Fault.text : Fault → String
  | .missing name => "missing field `" ++ name ++ "`"
  | .repeated name => "duplicate field `" ++ name ++ "`"
  | .kind found wanted => "invalid type: " ++ found.describe ++ ", expected " ++ wanted
  | .tooLarge found wanted =>
      "invalid value: integer `" ++ toString found ++ "`, expected " ++ wanted
  | .length count wanted => "invalid length " ++ toString count ++ ", expected " ++ wanted
  | .timestamp fault => fault.text

abbrev Decoded := Except Fault

def decodeText : Json → Decoded String
  | .text value => .ok value
  | other => .error (.kind other "a string")

def decodeBoolean : Json → Decoded Bool
  | .boolean value => .ok value
  | other => .error (.kind other "a boolean")

def decodeLong : Json → Decoded Int
  | .integer value =>
      if Number.fitsSigned value then .ok value else .error (.tooLarge value "i64")
  | other => .error (.kind other "i64")

def decodeTimestamp : Json → Decoded Timestamp
  | .text value => (Timestamp.parse value).mapError Fault.timestamp
  | other => .error (.kind other "an RFC 3339 formatted date and time string")

def decodeList {α : Type} (decode : Json → Decoded α) : Json → Decoded (List α)
  | .array elements => elements.mapM decode
  | other => .error (.kind other "a sequence")

/-- Names and what they stand for; of two values of one name the last one stays. -/
def decodeMap {α : Type} (decode : Json → Decoded α) : Json → Decoded (List (String × α))
  | .object members => do
      let entries ← members.mapM fun (name, value) => do return (name, ← decode value)
      return entries.zipIdx.filterMap fun (entry, position) =>
        if (entries.drop (position + 1)).any fun later => later.1 = entry.1 then none
        else some entry
  | other => .error (.kind other "a map")

def decodeOptional {α : Type} (decode : Json → Decoded α) : Json → Decoded (Option α)
  | .null => .ok none
  | other => (decode other).map some

/-- The member of this name, which may be there only once. -/
def readMember {α : Type} (members : List (String × Json)) (name : String)
    (decode : Json → Decoded α) : Decoded (Option α) :=
  match members.filter fun member => member.1 = name with
  | [] => .ok none
  | [(_, value)] => (decode value).map some
  | _ => .error (.repeated name)

def readOptional {α : Type} (members : List (String × Json)) (name : String)
    (decode : Json → Decoded α) : Decoded (Option α) := do
  return (← readMember members name (decodeOptional decode)).join

/-- The last member of this name, where null is the same as none. The other members of the name must
be readable too. -/
def readLast {α : Type} (members : List (String × Json)) (name : String)
    (decode : Json → Decoded α) : Decoded (Option α) := do
  let values ← (members.filter fun member => member.1 = name).mapM fun member =>
    decodeOptional decode member.2
  return values.getLast?.join

def demand {α : Type} (name : String) : Option α → Decoded α
  | some value => .ok value
  | none => .error (.missing name)

def memberOf {α : Type} (name : String) (encode : α → Json) (value : Option α) :
    List (String × Json) :=
  (value.map fun value => (name, encode value)).toList

end PolicyWarden.Json
