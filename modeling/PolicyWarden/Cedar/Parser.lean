import PolicyWarden.Cedar.Phrase
import PolicyWarden.Number.Width

/-!
Reading policies from tokens. A reader that meets a token it cannot use looks for the innermost
expression around it that may end before that token, gives that expression up and goes on behind it;
tokens that fit nowhere are dropped. A whole policy can be given up at its semicolon. Each time
counts as one error; at the end of the text there is nothing to go on with, and reading stops.
-/

namespace PolicyWarden.Cedar

structure Remaining where
  tokens : List Token
  errors : Nat

inductive Reading (α : Type) where
  | read (value : α) (rest : Remaining)
  /-- Everything is given up to the expression that lies so many levels further out. -/
  | unwound (levels : Nat) (rest : Remaining)
  | stopped (errors : Nat)

/-- The tokens that may follow each expression begun and not yet ended, the innermost first. -/
abbrev Pending := List (List Token)

def Reader.Parse (α : Type) := Pending → Remaining → Reading α

namespace Reader

variable {α β : Type}

def Parse.pure (value : α) : Parse α :=
  fun _ rest => .read value rest

def Parse.bind (first : Parse α) (next : α → Parse β) : Parse β :=
  fun pending rest =>
    match first pending rest with
    | .read value rest => next value pending rest
    | .unwound levels rest => .unwound levels rest
    | .stopped errors => .stopped errors

instance : Monad Parse where
  pure := Parse.pure
  bind := Parse.bind

instance : Inhabited (Parse α) := ⟨fun _ rest => .stopped rest.errors⟩

/-- The level of the innermost expression that may end before one of the tokens, which then comes
next. -/
def resume (pending : Pending) : List Token → Option (Nat × List Token)
  | [] => none
  | token :: rest =>
      match pending.findIdx? (·.contains token) with
      | some level => some (level, token :: rest)
      | none => resume pending rest

def fail : Parse α :=
  fun pending rest =>
    match resume pending rest.tokens with
    | some (level, tokens) => .unwound level ⟨tokens, rest.errors + 1⟩
    | none => .stopped (rest.errors + 1)

def stop : Parse α :=
  fun _ rest => .stopped (rest.errors + 1)

def peek : Parse (Option Token) :=
  fun _ rest => .read rest.tokens.head? rest

def peekSecond : Parse (Option Token) :=
  fun _ rest => .read rest.tokens.tail.head? rest

def skip : Parse Unit :=
  fun _ rest => .read () { rest with tokens := rest.tokens.tail }

/-- Reads an expression that one of `follow` must come after; `fallback` stands for it if it is
given up. -/
def within (follow : List Token) (fallback : α) (parse : Parse α) : Parse α :=
  fun pending rest =>
    match parse (follow :: pending) rest with
    | .unwound 0 rest => .read fallback rest
    | .unwound (level + 1) rest => .unwound level rest
    | other => other

def withinSame (fallback : α) (parse : Parse α) : Parse α :=
  fun pending rest => within (pending.headD []) fallback parse pending rest

def nextIs (token : Token) : Parse Bool := do
  return (← peek) = some token

def expect (token : Token) : Parse Unit := do
  if ← nextIs token then skip else fail

def accept (token : Token) : Parse Bool := do
  if ← nextIs token then
    skip
    return true
  else return false

def isReservedStart (name : String) : Bool :=
  name = "true" || name = "false" || name = "if"

def word : Parse String := do
  match ← peek with
  | some (.word name) =>
      if isReservedStart name then fail
      else
        skip
        return name
  | _ => fail

def anyWord : Parse String := do
  match ← peek with
  | some (.word name) =>
      skip
      return name
  | _ => fail

def pathRest : (fuel : Nat) → (spaces : List String) → (base : String) → Parse Path
  | 0, _, _ => stop
  | fuel + 1, spaces, base => do
      if ← accept (.mark "::") then
        let next ← word
        pathRest fuel (spaces ++ [base]) next
      else return ⟨spaces, base⟩

/-- Skips what stands between the braces of an entity with members, whose form has no meaning. -/
def entityMembers : (fuel : Nat) → Parse Unit
  | 0 => stop
  | fuel + 1 => do
      if ← accept (.mark "\x7d") then return ()
      else
        let _ ← anyWord
        expect (.mark ":")
        match ← peek with
        | some (.number _) => skip
        | some (.text _) => skip
        | some (.word "true") => skip
        | some (.word "false") => skip
        | _ => fail
        if ← accept (.mark ",") then entityMembers fuel
        else expect (.mark "\x7d")

def named : (fuel : Nat) → (spaces : List String) → (base : String) → Parse Phrase
  | 0, _, _ => stop
  | fuel + 1, spaces, base => do
      if ← accept (.mark "::") then
        match ← peek with
        | some (.text raw) =>
            skip
            return .entity ⟨spaces, base⟩ raw
        | some (.mark "\x7b") =>
            skip
            entityMembers fuel
            return .entityRecord ⟨spaces, base⟩
        | _ =>
            let next ← word
            named fuel (spaces ++ [base]) next
      else return .name ⟨spaces, base⟩

def relator? : Token → Option Relator
  | .mark "<" => some .less
  | .mark "<=" => some .lessEqual
  | .mark ">=" => some .greaterEqual
  | .mark ">" => some .greater
  | .mark "!=" => some .notEqual
  | .mark "==" => some .equal
  | .mark "=" => some .assigned
  | .word "in" => some .within
  | _ => none

def scaling? : Token → Option Scaling
  | .mark "*" => some .times
  | .mark "/" => some .divide
  | .mark "%" => some .remainder
  | _ => none

def adding? : Token → Option Adding
  | .mark "+" => some .plus
  | .mark "-" => some .minus
  | _ => none

def signs (mark : Token) : (fuel : Nat) → Parse Nat
  | 0 => stop
  | fuel + 1 => do
      if ← accept mark then return (← signs mark fuel) + 1
      else return 0

mutual
def expression : (fuel : Nat) → Parse Phrase
  | 0 => stop
  | fuel + 1 => do
      if ← accept (.word "if") then
        let condition ← within [.word "then"] .unreadable (expression fuel)
        expect (.word "then")
        let consequence ← within [.word "else"] .unreadable (expression fuel)
        expect (.word "else")
        let alternative ← withinSame .unreadable (expression fuel)
        return .choice condition consequence alternative
      else
        let first ← conjunction fuel
        let rest ← disjuncts fuel
        return if rest.isEmpty then first else .either first rest

def disjuncts : (fuel : Nat) → Parse (List Phrase)
  | 0 => stop
  | fuel + 1 => do
      if ← accept (.mark "||") then
        let next ← conjunction fuel
        return next :: (← disjuncts fuel)
      else return []

def conjunction : (fuel : Nat) → Parse Phrase
  | 0 => stop
  | fuel + 1 => do
      let first ← relation fuel
      let rest ← conjuncts fuel
      return if rest.isEmpty then first else .both first rest

def conjuncts : (fuel : Nat) → Parse (List Phrase)
  | 0 => stop
  | fuel + 1 => do
      if ← accept (.mark "&&") then
        let next ← relation fuel
        return next :: (← conjuncts fuel)
      else return []

def relation : (fuel : Nat) → Parse Phrase
  | 0 => stop
  | fuel + 1 => do
      let first ← sum fuel
      match ← peek with
      | some (.word "has") =>
          skip
          if ← accept (.word "if") then return .has first (.name ⟨[], "if"⟩)
          else return .has first (← sum fuel)
      | some (.word "like") =>
          skip
          return .like first (← sum fuel)
      | some (.word "is") =>
          skip
          let entityType ← sum fuel
          if ← accept (.word "in") then return .is first entityType (some (← sum fuel))
          else return .is first entityType none
      | _ =>
          let rest ← comparisons fuel
          return if rest.isEmpty then first else .relation first rest

def comparisons : (fuel : Nat) → Parse (List (Relator × Phrase))
  | 0 => stop
  | fuel + 1 => do
      match (← peek).bind relator? with
      | some relator =>
          skip
          let next ← sum fuel
          return (relator, next) :: (← comparisons fuel)
      | none => return []

def sum : (fuel : Nat) → Parse Phrase
  | 0 => stop
  | fuel + 1 => do
      let first ← product fuel
      let rest ← summands fuel
      return if rest.isEmpty then first else .sum first rest

def summands : (fuel : Nat) → Parse (List (Adding × Phrase))
  | 0 => stop
  | fuel + 1 => do
      match (← peek).bind adding? with
      | some adding =>
          skip
          let next ← product fuel
          return (adding, next) :: (← summands fuel)
      | none => return []

def product : (fuel : Nat) → Parse Phrase
  | 0 => stop
  | fuel + 1 => do
      let first ← signed fuel
      let rest ← factors fuel
      return if rest.isEmpty then first else .product first rest

def factors : (fuel : Nat) → Parse (List (Scaling × Phrase))
  | 0 => stop
  | fuel + 1 => do
      match (← peek).bind scaling? with
      | some scaling =>
          skip
          let next ← signed fuel
          return (scaling, next) :: (← factors fuel)
      | none => return []

def signed : (fuel : Nat) → Parse Phrase
  | 0 => stop
  | fuel + 1 => do
      let bangs ← signs (.mark "!") fuel
      if bangs > 0 then return .signed (.bangs bangs) (← member fuel)
      else
        let dashes ← signs (.mark "-") fuel
        if dashes > 0 then return .signed (.dashes dashes) (← member fuel)
        else member fuel

def member : (fuel : Nat) → Parse Phrase
  | 0 => stop
  | fuel + 1 => do
      let target ← primary fuel
      let accesses ← accesses fuel
      return if accesses.isEmpty then target else .member target accesses

def accesses : (fuel : Nat) → Parse (List Access)
  | 0 => stop
  | fuel + 1 => do
      match ← peek with
      | some (.mark ".") =>
          skip
          let name ← anyWord
          return .field name :: (← accesses fuel)
      | some (.mark "(") =>
          skip
          let arguments ← elements (.mark ")") fuel
          return .call arguments :: (← accesses fuel)
      | some (.mark "[") =>
          skip
          let key ← within [.mark "]"] .unreadable (expression fuel)
          expect (.mark "]")
          return .index key :: (← accesses fuel)
      | _ => return []

def elements (closing : Token) : (fuel : Nat) → Parse (List Phrase)
  | 0 => stop
  | fuel + 1 => do
      if ← accept closing then return []
      else
        let first ← within [.mark ",", closing] .unreadable (expression fuel)
        if ← accept (.mark ",") then return first :: (← elements closing fuel)
        else
          expect closing
          return [first]

def members : (fuel : Nat) → Parse (List (Phrase × Phrase))
  | 0 => stop
  | fuel + 1 => do
      if ← accept (.mark "\x7d") then return []
      else
        let bareIf := (← nextIs (.word "if")) && (← peekSecond) = some (.mark ":")
        let key ←
          if bareIf then do
            skip
            pure (Phrase.name ⟨[], "if"⟩)
          else within [.mark ":"] .unreadable (expression fuel)
        expect (.mark ":")
        let value ← within [.mark ",", .mark "\x7d"] .unreadable (expression fuel)
        if ← accept (.mark ",") then return (key, value) :: (← members fuel)
        else
          expect (.mark "\x7d")
          return [(key, value)]

def primary : (fuel : Nat) → Parse Phrase
  | 0 => stop
  | fuel + 1 => do
      match ← peek with
      | some (.word "true") =>
          skip
          return .literal (.boolean true)
      | some (.word "false") =>
          skip
          return .literal (.boolean false)
      | some (.word "if") => fail
      | some (.word name) =>
          skip
          named fuel [] name
      | some (.number value) =>
          if value < Number.wordCount then
            skip
            return .literal (.number value)
          else stop
      | some (.text raw) =>
          skip
          return .literal (.text raw)
      | some (.slot name) =>
          skip
          return .slot name
      | some (.mark "(") =>
          skip
          let inner ← within [.mark ")"] .unreadable (expression fuel)
          expect (.mark ")")
          return .group inner
      | some (.mark "[") =>
          skip
          return .list (← elements (.mark "]") fuel)
      | some (.mark "\x7b") =>
          skip
          return .record (← members fuel)
      | _ => fail
end

def headVariable (fuel : Nat) : Parse HeadVariable := do
  let name ← word
  let colonType ←
    if ← accept (.mark ":") then do
      let base ← word
      pure (some (← pathRest fuel [] base))
    else pure none
  let isType ←
    if ← accept (.word "is") then do pure (some (← sum fuel))
    else pure none
  let relation ←
    match (← peek).bind relator? with
    | some relator => do
        skip
        let value ← within [.mark ",", .mark ")"] .unreadable (expression fuel)
        pure (some (relator, value))
    | none => pure none
  return ⟨name, colonType, isType, relation⟩

def headVariables : (fuel : Nat) → Parse (List HeadVariable)
  | 0 => stop
  | fuel + 1 => do
      if ← accept (.mark ")") then return []
      else
        let first ← headVariable fuel
        if ← accept (.mark ",") then return first :: (← headVariables fuel)
        else
          expect (.mark ")")
          return [first]

def labels : (fuel : Nat) → Parse (List Label)
  | 0 => stop
  | fuel + 1 => do
      if ← accept (.mark "@") then
        let name ← anyWord
        let raw ←
          if ← accept (.mark "(") then
            match ← peek with
            | some (.text raw) => do
                skip
                expect (.mark ")")
                pure (some raw)
            | _ => fail
          else pure none
        return ⟨name, raw⟩ :: (← labels fuel)
      else return []

def clauses : (fuel : Nat) → Parse (List Clause)
  | 0 => stop
  | fuel + 1 => do
      if ← accept (.mark ";") then return []
      else
        let name ← word
        expect (.mark "\x7b")
        let body ←
          if ← nextIs (.mark "\x7d") then pure none
          else do pure (some (← within [.mark "\x7d"] .unreadable (expression fuel)))
        expect (.mark "\x7d")
        return ⟨name, body⟩ :: (← clauses fuel)

def policy (fuel : Nat) : Parse PolicyPhrase := do
  let labels ← labels fuel
  let effect ← word
  expect (.mark "(")
  let heads ← headVariables fuel
  let clauses ← clauses fuel
  return ⟨labels, effect, heads, clauses⟩

/-- All policies of the tokens; one that is given up ends before its semicolon and leaves nothing.
-/
def policies (fuel : Nat) (complete : Bool) :
    (turns : Nat) → Remaining → Except Nat (List PolicyPhrase)
  | 0, rest => .error (rest.errors + 1)
  | turns + 1, rest =>
      if rest.tokens.isEmpty then
        if !complete then .error (rest.errors + 1)
        else if rest.errors > 0 then .error rest.errors
        else .ok []
      else
        match policy fuel [[.mark ";"]] rest with
        | .read phrase rest => do
            let others ← policies fuel complete turns rest
            return phrase :: others
        | .unwound _ rest => policies fuel complete turns { rest with tokens := rest.tokens.tail }
        | .stopped errors => .error errors

end Reader

def PolicyPhrase.parseAll (source : String) : Except Nat (List PolicyPhrase) :=
  let scan := Token.scan source
  let length := scan.tokens.length
  Reader.policies (12 * length + 12) scan.complete (length + 1) ⟨scan.tokens, 0⟩

end PolicyWarden.Cedar
