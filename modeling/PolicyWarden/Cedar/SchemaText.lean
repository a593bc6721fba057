import PolicyWarden.Cedar.Text
import PolicyWarden.Cedar.Token

/-!
Schemas as written: the declarations of a text, with the names they use not yet looked up.
-/

namespace PolicyWarden.Cedar.Schema

inductive TypePhrase where
  | named (path : List String)
  | set (element : TypePhrase)
  | record (attributes : List (String × Bool × TypePhrase))
deriving Inhabited

structure ActionReference where
  path : List String
  id : String

structure Application where
  principals : Option (List (List String)) := none
  resources : Option (List (List String)) := none
  context : Option TypePhrase := none

inductive Declaration where
  | entity (names : List String) (containers : List (List String))
      (attributes : List (String × Bool × TypePhrase)) (tags : Option TypePhrase)
  | choice (names : List String) (ids : List String)
  | action (names : List String) (groups : List ActionReference) (application : Option Application)
  | abbreviation (name : String) (phrase : TypePhrase)

structure NamespacePhrase where
  path : List String
  declarations : List Declaration

/-- A reader of tokens; a schema with any error has no meaning at all. -/
abbrev Reading := StateT (List Token) Option

namespace Reading

def refuse {α : Type} : Reading α := fun _ => none

def peek : Reading (Option Token) := do return (← get).head?

def skip : Reading Unit := modify List.tail

def accept (token : Token) : Reading Bool := do
  if (← peek) = some token then
    skip
    return true
  else return false

def expect (token : Token) : Reading Unit := do
  if !(← accept token) then refuse

def acceptMark (symbol : String) : Reading Bool := accept (.mark symbol)

def expectMark (symbol : String) : Reading Unit := expect (.mark symbol)

def isReserved (name : String) : Bool :=
  ["true", "false", "if", "then", "else", "in", "is", "has", "like", "__cedar"].contains name

def anyWord : Reading String := do
  match ← peek with
  | some (.word name) =>
      skip
      return name
  | _ => refuse

def word : Reading String := do
  let name ← anyWord
  if isReserved name then refuse else return name

def quoted : Reading String := do
  match ← peek with
  | some (.text raw) =>
      skip
      match Text.unescape raw with
      | .ok value => return value
      | .error _ => refuse
  | _ => refuse

def wordOrQuoted : Reading String := do
  match ← peek with
  | some (.text _) => quoted
  | _ => anyWord

def separated {α : Type} (item : Reading α) : (fuel : Nat) → Reading (List α)
  | 0 => refuse
  | fuel + 1 => do
      let first ← item
      if ← acceptMark "," then return first :: (← separated item fuel)
      else return [first]

def listUntil {α : Type} (closing : String) (item : Reading α) : (fuel : Nat) → Reading (List α)
  | 0 => refuse
  | fuel + 1 => do
      if ← acceptMark closing then return []
      else
        let first ← item
        if ← acceptMark "," then return first :: (← listUntil closing item fuel)
        else
          expectMark closing
          return [first]

def pathAfter : (fuel : Nat) → Reading (List String)
  | 0 => refuse
  | fuel + 1 => do
      if ← acceptMark "::" then return (← word) :: (← pathAfter fuel)
      else return []

/-- The names of a path; the language's own namespace may begin it. -/
def path (fuel : Nat) : Reading (List String) := do
  let first ← anyWord
  if first ≠ "__cedar" && isReserved first then refuse
  else return first :: (← pathAfter fuel)

def paths (fuel : Nat) : Reading (List (List String)) := do
  if ← acceptMark "[" then listUntil "]" (path fuel) fuel
  else return [← path fuel]

def labels : (fuel : Nat) → Reading Unit
  | 0 => refuse
  | fuel + 1 => do
      if ← acceptMark "@" then
        let _ ← anyWord
        if ← acceptMark "(" then
          let _ ← quoted
          expectMark ")"
        labels fuel
      else return ()

mutual
def typePhrase : (fuel : Nat) → Reading TypePhrase
  | 0 => refuse
  | fuel + 1 => do
      match ← peek with
      | some (.mark "\x7b") =>
          skip
          return .record (← attributes fuel)
      | _ =>
          let names ← path fuel
          if names = ["Set"] && (← acceptMark "<") then
            let element ← typePhrase fuel
            expectMark ">"
            return .set element
          else return .named names

def attributes : (fuel : Nat) → Reading (List (String × Bool × TypePhrase))
  | 0 => refuse
  | fuel + 1 => do
      if ← acceptMark "\x7d" then return []
      else
        labels fuel
        let name ← wordOrQuoted
        let optional ← acceptMark "?"
        expectMark ":"
        let phrase ← typePhrase fuel
        if ← acceptMark "," then return (name, !optional, phrase) :: (← attributes fuel)
        else
          expectMark "\x7d"
          return [(name, !optional, phrase)]
end

def entityDeclaration (fuel : Nat) : Reading Declaration := do
  let names ← separated word fuel
  if ← accept (.word "enum") then
    expectMark "["
    let ids ← listUntil "]" quoted fuel
    expectMark ";"
    if ids.isEmpty then refuse else return .choice names ids
  else
    let containers ← if ← accept (.word "in") then paths fuel else pure []
    let equals ← acceptMark "="
    let attributes ←
      if ← acceptMark "\x7b" then attributes fuel
      else if equals then refuse
      else pure []
    let tags ← if ← accept (.word "tags") then some <$> typePhrase fuel else pure none
    expectMark ";"
    return .entity names containers attributes tags

def actionReference (fuel : Nat) : Reading ActionReference := do
  match ← peek with
  | some (.text _) => return ⟨[], ← quoted⟩
  | _ =>
      let rec after : (fuel : Nat) → List String → Reading ActionReference
        | 0, _ => refuse
        | fuel + 1, names => do
            if ← acceptMark "::" then
              match ← peek with
              | some (.text _) => return ⟨names, ← quoted⟩
              | _ => after fuel (names ++ [← word])
            else match names with
              | [name] => return ⟨[], name⟩
              | _ => refuse
      after fuel [← word]

def applicationParts : (fuel : Nat) → Application → Reading Application
  | 0, _ => refuse
  | fuel + 1, application => do
      if ← acceptMark "\x7d" then return application
      else
        let part ← anyWord
        expectMark ":"
        let next ← match part with
          | "principal" => do
              if application.principals.isSome then refuse
              pure { application with principals := some (← paths fuel) }
          | "resource" => do
              if application.resources.isSome then refuse
              pure { application with resources := some (← paths fuel) }
          | "context" => do
              if application.context.isSome then refuse
              pure { application with context := some (← typePhrase fuel) }
          | _ => refuse
        if ← acceptMark "," then applicationParts fuel next
        else
          expectMark "\x7d"
          return next

def actionDeclaration (fuel : Nat) : Reading Declaration := do
  let names ← separated wordOrQuoted fuel
  let groups ←
    if ← accept (.word "in") then
      if ← acceptMark "[" then listUntil "]" (actionReference fuel) fuel
      else do pure [← actionReference fuel]
    else pure []
  let application ←
    if ← accept (.word "appliesTo") then do
      expectMark "\x7b"
      let application ← applicationParts fuel {}
      let given (part : Option (List (List String))) : Bool := part.any (!·.isEmpty)
      if given application.principals && given application.resources then pure (some application)
      else refuse
    else pure none
  if ← accept (.word "attributes") then
    expectMark "\x7b"
    let _ ← attributes fuel
  expectMark ";"
  return .action names groups application

def declaration (fuel : Nat) : Reading Declaration := do
  match ← anyWord with
  | "entity" => entityDeclaration fuel
  | "action" => actionDeclaration fuel
  | "type" =>
      let name ← word
      expectMark "="
      let phrase ← typePhrase fuel
      expectMark ";"
      return .abbreviation name phrase
  | _ => refuse

def declarations : (fuel : Nat) → Reading (List Declaration)
  | 0 => refuse
  | fuel + 1 => do
      labels fuel
      if ← acceptMark "\x7d" then return []
      else return (← declaration fuel) :: (← declarations fuel)

/-- The namespaces of a schema; declarations outside any belong to the one without a name. -/
def namespaces : (fuel : Nat) → Reading (List NamespacePhrase)
  | 0 => refuse
  | fuel + 1 => do
      if (← get).isEmpty then return []
      else
        labels fuel
        if ← accept (.word "namespace") then
          let first ← word
          let names := first :: (← pathAfter fuel)
          expectMark "\x7b"
          let inside ← declarations fuel
          return ⟨names, inside⟩ :: (← namespaces fuel)
        else
          let first ← declaration fuel
          return ⟨[], [first]⟩ :: (← namespaces fuel)

end Reading

def phrases? (source : String) : Option (List NamespacePhrase) :=
  let scan := Token.scanSchema source
  if scan.complete then
    ((Reading.namespaces (scan.tokens.length + 2)).run scan.tokens).map (·.1)
  else none

end PolicyWarden.Cedar.Schema
