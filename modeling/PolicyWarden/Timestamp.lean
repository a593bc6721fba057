import PolicyWarden.Blank
import PolicyWarden.Calendar

/-!
Moments in universal time, read from and written to text such as `2024-05-01T12:00:00Z`. Reading
lets blanks stand between the parts and parts be shorter than two digits; writing has one form,
without fractions of a second.
-/

namespace PolicyWarden

structure Timestamp where
  seconds : Int
  /-- Whether it is the inserted second that follows. -/
  leap : Bool := false
deriving DecidableEq, Repr

namespace Timestamp

inductive Fault where
  | outOfRange
  | invalid
  | tooShort
  | tooLong
deriving DecidableEq, Repr

def Fault.text : Fault → String
  | .outOfRange => "input is out of range"
  | .invalid => "input contains invalid characters"
  | .tooShort => "premature end of input"
  | .tooLong => "trailing input"

abbrev Reader := StateT (List Char) (Except Fault)

def skipBlanks : Reader Unit :=
  modify fun characters => characters.dropWhile isBlank

def digits (limit : Option Nat) : Reader Nat := do
  let characters ← get
  let reachable := match limit with
    | some limit => characters.take limit
    | none => characters
  let digits := reachable.takeWhile Char.isDigit
  if characters.isEmpty then throw .tooShort
  else if digits.isEmpty then throw .invalid
  else do
    set (characters.drop digits.length)
    return digits.foldl (fun value digit => value * 10 + (digit.toNat - '0'.toNat)) 0

def part (least most : Nat) : Reader Nat := do
  skipBlanks
  let value ← digits (some 2)
  if value < least || most < value then throw .outOfRange else return value

/-- A year of four digits, or of any number of digits after a sign. -/
def year : Reader Int := do
  skipBlanks
  match ← get with
  | '-' :: rest => do
      set rest
      return -(← digits none : Nat)
  | '+' :: rest => do
      set rest
      return (← digits none : Nat)
  | _ => return (← digits (some 4) : Nat)

def mark (wanted : Char) : Reader Unit := do
  skipBlanks
  match ← get with
  | character :: rest => if character = wanted then set rest else throw .invalid
  | [] => throw .tooShort

/-- Between date and time: `T` or a blank. -/
def divider : Reader Unit := do
  match ← get with
  | character :: rest =>
      if character = 'T' || character = 't' || character = ' ' then set rest else throw .invalid
  | [] => throw .tooShort

/-- A fraction of a second, which is read and dropped. -/
def fraction : Reader Unit := do
  match ← get with
  | '.' :: rest => do
      set rest
      let _ ← digits none
  | _ => return ()

def twoDigits : Reader Nat := do
  match ← get with
  | first :: second :: rest =>
      if first.isDigit && second.isDigit then do
        set rest
        return (first.toNat - '0'.toNat) * 10 + (second.toNat - '0'.toNat)
      else throw .invalid
  | _ => throw .tooShort

def shift : Reader Int := do
  let hours ← twoDigits
  modify fun characters =>
    characters.dropWhile fun character => character = ':' || isBlank character
  let minutes ← twoDigits
  if minutes > 59 then throw .outOfRange
  else return (hours * 60 + minutes) * 60

def zone : Reader Int := do
  skipBlanks
  match ← get with
  | [] => throw .tooShort
  | first :: rest =>
      if ((first :: rest).take 3).map Char.toUpper = ['U', 'T', 'C'] then do
        set (rest.drop 2)
        return 0
      else if first = 'Z' || first = 'z' then do
        set rest
        return 0
      else if first = '+' then do
        set rest
        shift
      else if first = '-' || first = '\u2212' then do
        set rest
        return -(← shift)
      else throw .invalid

def moment : Reader Timestamp := do
  let year ← year
  mark '-'
  let month ← part 1 12
  mark '-'
  let day ← part 1 31
  divider
  let hour ← part 0 23
  mark ':'
  let minute ← part 0 59
  mark ':'
  let second ← part 0 60
  fraction
  let offset ← zone
  skipBlanks
  if !(← get).isEmpty then throw .tooLong
  else if !Calendar.isDate year month day || offset.natAbs ≥ 86400 then throw .outOfRange
  else
    let time : Int := (hour * 60 + minute) * 60 + min second 59
    return {
      seconds := Calendar.daysTo year month day * 86400 + time - offset
      leap := second = 60 }

def parse (source : String) : Except Fault Timestamp :=
  (moment.run source.toList).map (·.1)

def padded (width : Nat) (value : Nat) : String :=
  let digits := Nat.toDigits 10 value
  String.ofList (List.replicate (width - digits.length) '0' ++ digits)

/-- Years of other than four digits have a sign. -/
def yearText (year : Int) : String :=
  if 0 ≤ year && year ≤ 9999 then padded 4 year.toNat
  else (if year < 0 then "-" else "+") ++ padded 4 year.natAbs

def text (moment : Timestamp) : String :=
  let (year, month, day) := Calendar.dateAfter (moment.seconds / 86400)
  let time := (moment.seconds % 86400).toNat
  let second := time % 60 + (if moment.leap then 1 else 0)
  yearText year ++ "-" ++ padded 2 month ++ "-" ++ padded 2 day ++ "T" ++ padded 2 (time / 3600) ++
    ":" ++ padded 2 (time / 60 % 60) ++ ":" ++ padded 2 second ++ "Z"

end Timestamp

end PolicyWarden
