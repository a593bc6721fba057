import PolicyWarden.Calendar
import PolicyWarden.Number.Width

/-!
Values beyond the plain ones: decimal numbers of four places, ranges of internet addresses, moments
and spans of time. Each is read from a text of one exact form.
-/

namespace PolicyWarden.Cedar

def boundedLong (value : Int) : Option Int :=
  if Number.fitsSigned value then some value else none

def digitsToNat (digits : List Char) : Nat :=
  digits.foldl (fun value digit => value * 10 + (digit.toNat - '0'.toNat)) 0

def naturalNumber? (digits : List Char) : Option Nat :=
  if !digits.isEmpty && digits.all Char.isDigit then some (digitsToNat digits) else none

def fields (separator : Char) : List Char → List (List Char)
  | [] => [[]]
  | character :: rest =>
      match fields separator rest with
      | [] => [[]]
      | first :: others =>
          if character = separator then [] :: first :: others else (character :: first) :: others

structure AddressRange where
  /-- Whether the address has 128 bits, and not 32. -/
  long : Bool
  bits : Nat
  common : Nat
deriving DecidableEq, Repr

namespace AddressRange

def size (range : AddressRange) : Nat :=
  if range.long then 128 else 32

def part? (digits : List Char) : Option Nat :=
  match naturalNumber? digits with
  | some value =>
      if value ≤ 255 && (digits.length = 1 || digits.head? ≠ some '0') && digits.length ≤ 3 then
        some value
      else none
  | none => none

/-- Four decimal parts of an address, none with a leading zero. -/
def short? (characters : List Char) : Option Nat := do
  match fields '.' characters with
  | [first, second, third, fourth] =>
      let first ← part? first
      let second ← part? second
      let third ← part? third
      let fourth ← part? fourth
      return ((first * 256 + second) * 256 + third) * 256 + fourth
  | _ => none

def hexValue? (character : Char) : Option Nat :=
  if character.isDigit then some (character.toNat - '0'.toNat)
  else if 'a' ≤ character ∧ character ≤ 'f' then some (character.toNat - 'a'.toNat + 10)
  else if 'A' ≤ character ∧ character ≤ 'F' then some (character.toNat - 'A'.toNat + 10)
  else none

def group? (digits : List Char) : Option Nat := do
  if digits.isEmpty || digits.length > 4 then none
  else
    let values ← digits.mapM hexValue?
    return values.foldl (fun value digit => value * 16 + digit) 0

def groups? (characters : List Char) : Option (List Nat) :=
  if characters.isEmpty then some [] else (fields ':' characters).mapM group?

def splitDoubleColon : List Char → Option (List Char × List Char)
  | ':' :: ':' :: rest => some ([], rest)
  | character :: rest =>
      (splitDoubleColon rest).map fun (before, after) => (character :: before, after)
  | [] => none

/-- Eight groups of hexadecimal digits; a double colon stands for one or more groups of zero. -/
def long? (characters : List Char) : Option Nat := do
  let groups ← match splitDoubleColon characters with
    | some (before, after) => do
        let before ← groups? before
        let after ← groups? after
        if before.length + after.length > 7 then none
        else some (before ++ List.replicate (8 - before.length - after.length) 0 ++ after)
    | none => groups? characters
  if groups.length = 8 then some (groups.foldl (fun value group => value * 65536 + group) 0)
  else none

def common? (digits : List Char) (limit : Nat) : Option Nat := do
  let value ← naturalNumber? digits
  if value ≤ limit && (digits.length = 1 || digits.head? ≠ some '0') then some value else none

def address? (characters : List Char) : Option (Bool × Nat) :=
  match short? characters with
  | some bits => some (false, bits)
  | none => (long? characters).map fun bits => (true, bits)

def parse? (source : String) : Option AddressRange := do
  let characters := source.toList
  if characters.length > 43 || (characters.contains ':' && characters.contains '.') then none
  else
    let address := characters.takeWhile (· ≠ '/')
    let (long, bits) ← address? address
    let limit := if long then 128 else 32
    match characters.drop address.length with
    | [] => return ⟨long, bits, limit⟩
    | _ :: digits => return ⟨long, bits, ← common? digits limit⟩

def first (range : AddressRange) : Nat :=
  let free := Nat.pow 2 (range.size - range.common)
  range.bits / free * free

def last (range : AddressRange) : Nat :=
  range.first + Nat.pow 2 (range.size - range.common) - 1

def isWithin (range other : AddressRange) : Bool :=
  range.long = other.long && other.first ≤ range.first && range.last ≤ other.last

def isLoopback (range : AddressRange) : Bool :=
  if range.long then range.bits = 1 && range.common = 128
  else range.bits / Nat.pow 2 24 = 127 && range.common ≥ 8

def isMulticast (range : AddressRange) : Bool :=
  if range.long then range.bits / Nat.pow 2 120 = 255 && range.common ≥ 8
  else range.bits / Nat.pow 2 28 = 14 && range.common ≥ 4

end AddressRange

/-- A decimal number in units of a ten-thousandth: digits, a point, and one to four digits. -/
def decimal? (source : String) : Option Int := do
  let characters := source.toList
  let (negative, digits) := match characters with
    | '-' :: rest => (true, rest)
    | _ => (false, characters)
  match fields '.' digits with
  | [whole, fraction] =>
      let whole ← naturalNumber? whole
      let places := fraction.length
      let fraction ← naturalNumber? fraction
      if places > 4 then none
      else
        let units : Int := whole * 10000 + fraction * Nat.pow 10 (4 - places)
        let _ ← boundedLong (if negative then -whole else whole)
        boundedLong (if negative then -units else units)
  | _ => none

def dayLength : Int := 86400000

def fixedDigits? (count : Nat) (characters : List Char) : Option (Nat × List Char) := do
  let digits := characters.take count
  if digits.length = count then
    let value ← naturalNumber? digits
    return (value, characters.drop count)
  else none

def literal? (wanted : Char) : List Char → Option (List Char)
  | character :: rest => if character = wanted then some rest else none
  | [] => none

def zone? : List Char → Option Int
  | ['Z'] => some 0
  | sign :: rest => do
      let (hours, rest) ← fixedDigits? 2 rest
      let (minutes, rest) ← fixedDigits? 2 rest
      if !rest.isEmpty || hours ≥ 24 || minutes ≥ 60 then none
      else
        let offset : Int := (hours * 60 + minutes) * 60000
        if sign = '+' then some offset else if sign = '-' then some (-offset) else none
  | [] => none

/-- A moment in milliseconds since the start of 1970: a date, or a date and a time with its zone. -/
def datetime? (source : String) : Option Int := do
  let (year, rest) ← fixedDigits? 4 source.toList
  let rest ← literal? '-' rest
  let (month, rest) ← fixedDigits? 2 rest
  let rest ← literal? '-' rest
  let (day, rest) ← fixedDigits? 2 rest
  if !Calendar.isDate year month day then none
  else
    let start := Calendar.daysTo year month day * dayLength
    if rest.isEmpty then some start
    else
      let rest ← literal? 'T' rest
      let (hour, rest) ← fixedDigits? 2 rest
      let rest ← literal? ':' rest
      let (minute, rest) ← fixedDigits? 2 rest
      let rest ← literal? ':' rest
      let (second, rest) ← fixedDigits? 2 rest
      let (millisecond, rest) ← match rest with
        | '.' :: rest => fixedDigits? 3 rest
        | rest => some (0, rest)
      let offset ← zone? rest
      if hour ≥ 24 || minute ≥ 60 || second ≥ 60 then none
      else
        let time : Int := ((hour * 60 + minute) * 60 + second) * 1000 + millisecond
        some (start + time - offset)

def spanUnits : List (List Char × Nat) :=
  [(['d'], 86400000), (['h'], 3600000), (['m'], 60000), (['s'], 1000), (['m', 's'], 1)]

/-- A sum of amounts, each unit at most once and the larger ones first. -/
def spanSum? : (units : List (List Char × Nat)) → List Char → Option Nat
  | [], rest => if rest.isEmpty then some 0 else none
  | (name, unit) :: units, characters =>
      let digits := characters.takeWhile Char.isDigit
      let rest := characters.drop digits.length
      let named := rest.takeWhile Char.isAlpha
      if !digits.isEmpty && named = name then
        (spanSum? units (rest.drop named.length)).map (digitsToNat digits * unit + ·)
      else spanSum? units characters

/-- A span in milliseconds: a sign if it is negative, and at least one amount. -/
def duration? (source : String) : Option Int := do
  let characters := source.toList
  let (negative, amounts) := match characters with
    | '-' :: rest => (true, rest)
    | _ => (false, characters)
  if amounts.isEmpty then none
  else
    let total ← spanSum? spanUnits amounts
    boundedLong (if negative then -(total : Int) else total)

end PolicyWarden.Cedar
