import PolicyWarden.Blank

/-!
Tokens of the Cedar language. A text falls into tokens from its start; blanks and comments between
them are dropped. Where no token begins the scan stops and the rest of the text is lost.
-/

namespace PolicyWarden.Cedar

def startsWord (character : Char) : Bool :=
  character.isAlpha || character = '_'

def continuesWord (character : Char) : Bool :=
  character.isAlphanum || character = '_'

inductive Token where
  | word (name : String)
  | number (value : Nat)
  | text (raw : List Char)
  /-- A place left open in a template, such as `?principal`. -/
  | slot (name : String)
  | mark (symbol : String)
deriving DecidableEq, Repr

structure Scan where
  tokens : List Token
  complete : Bool

namespace Token

def afterComment (characters : List Char) : List Char :=
  let isLineEnd (character : Char) : Bool := character = '\n' || character = '\r'
  (characters.dropWhile (!isLineEnd ·)).dropWhile isLineEnd

/-- What stands before the closing quotation mark, and what follows it. A backslash takes the next
character with it, which must not end the line. -/
def readText : (read : List Char) → List Char → Option (List Char × List Char)
  | read, '"' :: rest => some (read.reverse, rest)
  | read, '\\' :: escaped :: rest =>
      if escaped = '\n' then none else readText (escaped :: '\\' :: read) rest
  | _, ['\\'] => none
  | read, character :: rest => readText (character :: read) rest
  | _, [] => none

/-- The marks of two characters, which go before those of one. -/
def doubleMarks : List String :=
  ["::", "==", "!=", "<=", ">=", "||", "&&"]

def singleMarks : List Char :=
  ['@', '.', ',', ';', ':', '(', ')', '{', '}', '[', ']', '<', '>', '+', '-', '*', '/', '%', '!',
    '=']

def readMark (marks : List Char) (characters : List Char) : Option (Token × List Char) :=
  let pair := String.ofList (characters.take 2)
  if doubleMarks.contains pair then some (.mark pair, characters.drop 2)
  else match characters with
    | character :: rest =>
        if marks.contains character then some (.mark character.toString, rest) else none
    | [] => none

def read (marks : List Char) (characters : List Char) : Option (Token × List Char) :=
  match characters with
  | '"' :: rest => (readText [] rest).map fun (raw, rest) => (.text raw, rest)
  | '?' :: first :: rest =>
      if startsWord first && !marks.contains '?' then
        let name := first :: rest.takeWhile continuesWord
        some (.slot (String.ofList name), rest.dropWhile continuesWord)
      else readMark marks characters
  | first :: rest =>
      if startsWord first then
        let name := first :: rest.takeWhile continuesWord
        some (.word (String.ofList name), rest.dropWhile continuesWord)
      else if first.isDigit then
        let digits := first :: rest.takeWhile Char.isDigit
        let value := digits.foldl (fun value digit => value * 10 + (digit.toNat - '0'.toNat)) 0
        some (.number value, rest.dropWhile Char.isDigit)
      else readMark marks characters
  | [] => none

def scanAll (marks : List Char) : (fuel : Nat) → List Char → Scan
  | 0, characters => ⟨[], characters.isEmpty⟩
  | fuel + 1, characters =>
      match characters with
      | [] => ⟨[], true⟩
      | '/' :: '/' :: rest => scanAll marks fuel (afterComment rest)
      | first :: rest =>
          if isBlank first then scanAll marks fuel rest
          else match read marks characters with
            | some (token, rest) =>
                let scan := scanAll marks fuel rest
                { scan with tokens := token :: scan.tokens }
            | none => ⟨[], false⟩

def scan (source : String) : Scan :=
  let characters := source.toList
  scanAll singleMarks characters.length characters

def scanSchema (source : String) : Scan :=
  let characters := source.toList
  scanAll ('?' :: singleMarks) characters.length characters

end Token

end PolicyWarden.Cedar
