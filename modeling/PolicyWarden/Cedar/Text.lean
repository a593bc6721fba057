/-!
The text between quotation marks with its escapes replaced. An escape that stands for no character
is a fault; reading goes on behind it, so that one text may have several.
-/

namespace PolicyWarden.Cedar.Text

def hexDigit? (character : Char) : Option Nat :=
  if character.isDigit then some (character.toNat - '0'.toNat)
  else if 'a' ≤ character ∧ character ≤ 'f' then some (character.toNat - 'a'.toNat + 10)
  else if 'A' ≤ character ∧ character ≤ 'F' then some (character.toNat - 'A'.toNat + 10)
  else none

/-- A character as written, or a fault. The star with a backslash before it is told apart, since
patterns allow it. -/
inductive Piece where
  | character (value : Char)
  | escapedStar
  | fault
deriving DecidableEq, Repr

def readUnicode : (digits value : Nat) → List Char → Piece × List Char
  | _, _, [] => (.fault, [])
  | digits, value, '_' :: rest => readUnicode digits value rest
  | digits, value, '}' :: rest =>
      if digits > 6 || !value.isValidChar then (.fault, rest)
      else (.character (Char.ofNat value), rest)
  | digits, value, character :: rest =>
      match hexDigit? character with
      | none => (.fault, rest)
      | some digit =>
          readUnicode (digits + 1) (if digits ≥ 6 then value else value * 16 + digit) rest

def readEscape : List Char → Piece × List Char
  | '"' :: rest => (.character '"', rest)
  | 'n' :: rest => (.character '\n', rest)
  | 'r' :: rest => (.character '\r', rest)
  | 't' :: rest => (.character '\t', rest)
  | '\\' :: rest => (.character '\\', rest)
  | '\'' :: rest => (.character '\'', rest)
  | '0' :: rest => (.character '\x00', rest)
  | '*' :: rest => (.escapedStar, rest)
  | 'x' :: rest =>
      match rest with
      | [] => (.fault, [])
      | high :: rest =>
          match hexDigit? high, rest with
          | none, rest => (.fault, rest)
          | some _, [] => (.fault, [])
          | some high, low :: rest =>
              match hexDigit? low with
              | none => (.fault, rest)
              | some low =>
                  if high ≥ 8 then (.fault, rest)
                  else (.character (Char.ofNat (high * 16 + low)), rest)
  | 'u' :: rest =>
      match rest with
      | [] => (.fault, [])
      | '{' :: rest =>
          match rest with
          | [] => (.fault, [])
          | first :: rest =>
              match hexDigit? first with
              | none => (.fault, rest)
              | some digit => readUnicode 1 digit rest
      | _ :: rest => (.fault, rest)
  | _ :: rest => (.fault, rest)
  | [] => (.fault, [])

/-- The pieces of a raw text; the fuel is the number of its characters. -/
def pieces : (fuel : Nat) → List Char → List Piece
  | 0, _ => []
  | _, [] => []
  | fuel + 1, '\\' :: rest =>
      let (piece, rest) := readEscape rest
      piece :: pieces fuel rest
  | fuel + 1, character :: rest =>
      (if character = '\r' then .fault else .character character) :: pieces fuel rest

def unescape (raw : List Char) : Except Nat String :=
  let parts := pieces raw.length raw
  let faults := (parts.filter fun part => part = .fault || part = .escapedStar).length
  if faults > 0 then .error faults
  else .ok (String.ofList (parts.filterMap fun part =>
    match part with
    | .character value => some value
    | _ => none))

inductive Wild where
  | any
  | exactly (character : Char)
deriving DecidableEq, Repr

def pattern (raw : List Char) : Except Nat (List Wild) :=
  let parts := pieces raw.length raw
  let faults := (parts.filter (· = .fault)).length
  if faults > 0 then .error faults
  else .ok (parts.map fun part =>
    match part with
    | .character '*' => .any
    | .character value => .exactly value
    | _ => .exactly '*')

/-- For each place of a text, from its start to its end, whether what follows there matches. -/
def matchPlaces (characters : List Char) : List Wild → List Bool
  | [] => characters.map (fun _ => false) ++ [true]
  | .exactly wanted :: rest =>
      let below := matchPlaces characters rest
      (characters.zip (below.drop 1)).map (fun (character, after) => wanted = character && after) ++
        [false]
  | .any :: rest =>
      (matchPlaces characters rest).foldr
        (fun here after => (here || after.headD false) :: after) []

/-- Whether the whole text matches; a star matches every run of characters, also an empty one. -/
def matchesPattern (pattern : List Wild) (value : String) : Bool :=
  (matchPlaces value.toList pattern).headD false

end PolicyWarden.Cedar.Text
