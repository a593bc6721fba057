import PolicyWarden.Json.Basic
import PolicyWarden.Number.Width

/-!
Reading JSON text. Every reader takes the characters left and gives back those it did not use; the
fuel bounds the depth of the calls and is never short, since each call uses a character.
-/

namespace PolicyWarden.Json

def isBlank (character : Char) : Bool :=
  character = ' ' || character = '\t' || character = '\n' || character = '\r'

def skipBlanks (characters : List Char) : List Char :=
  characters.dropWhile isBlank

def hexDigit? (character : Char) : Option Nat :=
  if character.isDigit then some (character.toNat - '0'.toNat)
  else if 'a' ≤ character ∧ character ≤ 'f' then some (character.toNat - 'a'.toNat + 10)
  else if 'A' ≤ character ∧ character ≤ 'F' then some (character.toNat - 'A'.toNat + 10)
  else none

def unit? : List Char → Option (Nat × List Char)
  | a :: b :: c :: d :: rest => do
      let a ← hexDigit? a
      let b ← hexDigit? b
      let c ← hexDigit? c
      let d ← hexDigit? d
      return (((a * 16 + b) * 16 + c) * 16 + d, rest)
  | _ => none

/-- The character of an escape after `\u`; a high surrogate needs its low one right after it. -/
def escapedUnit? (characters : List Char) : Option (Char × List Char) := do
  let (unit, rest) ← unit? characters
  if 0xD800 ≤ unit ∧ unit < 0xDC00 then
    match rest with
    | '\\' :: 'u' :: rest =>
        let (low, rest) ← unit? rest
        if 0xDC00 ≤ low ∧ low < 0xE000 then
          return (Char.ofNat (0x10000 + (unit - 0xD800) * 0x400 + (low - 0xDC00)), rest)
        else none
    | _ => none
  else if 0xDC00 ≤ unit ∧ unit < 0xE000 then none
  else return (Char.ofNat unit, rest)

/-- The characters of a string up to its closing mark; `read` holds those met, last first. -/
def readString : (fuel : Nat) → (read : List Char) → List Char → Option (String × List Char)
  | 0, _, _ => none
  | fuel + 1, read, characters =>
      match characters with
      | '"' :: rest => some (String.ofList read.reverse, rest)
      | '\\' :: 'u' :: rest => do
          let (character, rest) ← escapedUnit? rest
          readString fuel (character :: read) rest
      | '\\' :: escaped :: rest =>
          match escaped with
          | '"' => readString fuel ('"' :: read) rest
          | '\\' => readString fuel ('\\' :: read) rest
          | '/' => readString fuel ('/' :: read) rest
          | 'b' => readString fuel ('\x08' :: read) rest
          | 'f' => readString fuel ('\x0c' :: read) rest
          | 'n' => readString fuel ('\n' :: read) rest
          | 'r' => readString fuel ('\r' :: read) rest
          | 't' => readString fuel ('\t' :: read) rest
          | _ => none
      | character :: rest =>
          if character.val < 0x20 then none else readString fuel (character :: read) rest
      | [] => none

def digitsValue (digits : List Char) : Nat :=
  digits.foldl (fun value digit => value * 10 + (digit.toNat - '0'.toNat)) 0

/-- The nearest binary number to `digits * 10 ^ exponent`; none if it would be infinite. -/
def real? (negative : Bool) (digits : Nat) (exponent : Int) : Option Json :=
  let magnitude :=
    if exponent.natAbs > 100000 then (if exponent < 0 || digits = 0 then 0.0 else 1.0 / 0.0)
    else Float.ofScientific digits (exponent < 0) exponent.natAbs
  if magnitude.isInf then none
  else some (.real (if negative then -magnitude else magnitude).toBits)

/-- A whole number if it is written as one and fits into 64 bits, and else the nearest binary one.
-/
def number? (negative : Bool) (whole fraction : List Char) (exponent : Option Int) : Option Json :=
  match fraction, exponent with
  | [], none =>
      let value := digitsValue whole
      if negative then
        if value = 0 || value > Number.signedLimit then real? true value 0
        else some (.integer (-value))
      else if value < Number.wordCount then some (.integer value)
      else real? false value 0
  | _, _ =>
      real? negative (digitsValue (whole ++ fraction)) (exponent.getD 0 - fraction.length)

def readExponent? : List Char → Option (Option Int × List Char)
  | mark :: rest =>
      if mark = 'e' || mark = 'E' then
        let (negative, rest) := match rest with
          | '-' :: rest => (true, rest)
          | '+' :: rest => (false, rest)
          | _ => (false, rest)
        let digits := rest.takeWhile Char.isDigit
        if digits.isEmpty then none
        else
          let value : Int := digitsValue digits
          some (some (if negative then -value else value), rest.drop digits.length)
      else some (none, mark :: rest)
  | [] => some (none, [])

def readNumber? (characters : List Char) : Option (Json × List Char) := do
  let (negative, characters) := match characters with
    | '-' :: rest => (true, rest)
    | _ => (false, characters)
  let whole := characters.takeWhile Char.isDigit
  let rest := characters.drop whole.length
  if whole.isEmpty || (whole.length > 1 && whole.head? = some '0') then none
  else
    let (fraction, rest) ← match rest with
      | '.' :: rest =>
          let digits := rest.takeWhile Char.isDigit
          if digits.isEmpty then none else some (digits, rest.drop digits.length)
      | _ => some ([], rest)
    let (exponent, rest) ← readExponent? rest
    let value ← number? negative whole fraction exponent
    return (value, rest)

mutual
/-- One value; `depth` is how many more arrays and objects may be opened inside. -/
def readValue : (fuel depth : Nat) → List Char → Option (Json × List Char)
  | 0, _, _ => none
  | fuel + 1, depth, characters =>
      match skipBlanks characters with
      | '"' :: rest => do
          let (value, rest) ← readString (rest.length + 1) [] rest
          return (.text value, rest)
      | '[' :: rest =>
          if depth = 0 then none
          else match skipBlanks rest with
            | ']' :: rest => some (.array [], rest)
            | rest => do
                let (elements, rest) ← readElements fuel (depth - 1) rest
                return (.array elements, rest)
      | '{' :: rest =>
          if depth = 0 then none
          else match skipBlanks rest with
            | '}' :: rest => some (.object [], rest)
            | rest => do
                let (members, rest) ← readMembers fuel (depth - 1) rest
                return (.object members, rest)
      | 'n' :: 'u' :: 'l' :: 'l' :: rest => some (.null, rest)
      | 't' :: 'r' :: 'u' :: 'e' :: rest => some (.boolean true, rest)
      | 'f' :: 'a' :: 'l' :: 's' :: 'e' :: rest => some (.boolean false, rest)
      | rest => readNumber? rest

def readElements : (fuel depth : Nat) → List Char → Option (List Json × List Char)
  | 0, _, _ => none
  | fuel + 1, depth, characters => do
      let (element, rest) ← readValue fuel depth characters
      match skipBlanks rest with
      | ',' :: rest =>
          let (elements, rest) ← readElements fuel depth rest
          return (element :: elements, rest)
      | ']' :: rest => return ([element], rest)
      | _ => none

def readMembers : (fuel depth : Nat) → List Char → Option (List (String × Json) × List Char)
  | 0, _, _ => none
  | fuel + 1, depth, characters =>
      match skipBlanks characters with
      | '"' :: rest => do
          let (name, rest) ← readString (rest.length + 1) [] rest
          match skipBlanks rest with
          | ':' :: rest =>
              let (value, rest) ← readValue fuel depth rest
              match skipBlanks rest with
              | ',' :: rest =>
                  let (members, rest) ← readMembers fuel depth rest
                  return ((name, value) :: members, rest)
              | '}' :: rest => return ([(name, value)], rest)
              | _ => none
          | _ => none
      | _ => none
end

def parse? (source : String) : Option Json := do
  let characters := source.toList
  let (document, rest) ← readValue (2 * characters.length + 2) 127 characters
  if (skipBlanks rest).isEmpty then some document else none

end PolicyWarden.Json
