import PolicyWarden.Cedar.Extension
import PolicyWarden.Cedar.Schema

/-!
Typing of expressions against a schema, for one choice of principal type, action and resource type.
An expression may be ill-typed in several places; typing goes on with what is still known, so that
all of them are found. A part that a known truth value rules out is not looked at.
-/

namespace PolicyWarden.Cedar

deriving instance BEq for Text.Wild
deriving instance BEq for Expression

namespace Kind

mutual
def fits : Kind → Kind → Bool
  | .boolean known, .boolean wanted => wanted = none || known = wanted
  | .long, .long => true
  | .text, .text => true
  | .extended name, .extended other => name = other
  | .entity name, .entity other => name = other
  | .entity _, .anyEntity => true
  | .anyEntity, .anyEntity => true
  | .set element, .set other => element.fits other
  | .set _, .anySet => true
  | .anySet, .anySet => true
  | .record attributes, .record others =>
      attributes.length = others.length && attributesFit attributes others
  | .record _, .anyRecord => true
  | .anyRecord, .anyRecord => true
  | _, _ => false

def attributesFit : List (String × Bool × Kind) → List (String × Bool × Kind) → Bool
  | [], _ => true
  | (name, required, kind) :: rest, others =>
      (others.any fun (other, needed, wanted) =>
        name = other && required = needed && kind.fits wanted) && attributesFit rest others
end

mutual
def join : Kind → Kind → Option Kind
  | .boolean known, .boolean other => some (.boolean (if known = other then known else none))
  | .set element, .set other => (element.join other).map .set
  | .record attributes, .record others =>
      if attributes.length = others.length then (joinAttributes attributes others).map .record
      else none
  | left, right =>
      if left.fits right then some right else if right.fits left then some left else none

def joinAttributes : List (String × Bool × Kind) → List (String × Bool × Kind) →
    Option (List (String × Bool × Kind))
  | [], _ => some []
  | (name, required, kind) :: rest, others => do
      let (_, needed, other) ← others.find? fun candidate => candidate.1 = name
      if required = needed then
        let joined ← kind.join other
        return (name, required, joined) :: (← joinAttributes rest others)
      else none
end

end Kind

structure Environment where
  principal : String
  action : ActionKind
  resource : String

inductive Capability where
  | attribute (target : Expression) (name : String)
  | tag (target key : Expression)
deriving BEq

/-- A fault: the place of the expression, as the way to it, and what is wrong there. -/
structure TypeFault where
  place : List Nat
  content : String
deriving DecidableEq

structure Typed where
  sound : Bool
  kind : Option Kind
  grants : List Capability := []

abbrev Typing := StateM (List TypeFault)

namespace Typed

def ok (kind : Kind) : Typed := ⟨true, some kind, []⟩

def okWith (kind : Kind) (grants : List Capability) : Typed := ⟨true, some kind, grants⟩

def truth : Typed := .ok (.boolean none)

def unsound (kind : Option Kind) : Typed := ⟨false, kind, []⟩

def report (place : List Nat) (content : String) : Typing Unit :=
  modify fun faults => ⟨place, content⟩ :: faults

/-- Goes on with what is known; nothing sound comes of an unsound part. -/
def andThen (typed : Typed) (next : Option Kind → List Capability → Typing Typed) :
    Typing Typed := do
  if typed.sound then next typed.kind typed.grants
  else return unsound (← next typed.kind []).kind

def expecting (place : List Nat) (expected : List Kind) (typed : Typed) : Typing Typed :=
  typed.andThen fun kind grants =>
    match kind with
    | none => return unsound none
    | some kind => do
        if expected.any kind.fits then return ⟨true, some kind, grants⟩
        else
          report place ("expected " ++ " or ".intercalate (expected.map Kind.describe) ++
            ", found " ++ kind.describe)
          return unsound none

end Typed

open Typed

def Schema.kindOf? (schema : Schema) (uid : EntityUid) : Option Kind :=
  if (schema.entity? uid.kind).isSome || (schema.action? uid).isSome then some (.entity uid.kind)
  else none

def Schema.attribute? (schema : Schema) (kind : Kind) (name : String) : Option (Bool × Kind) :=
  let attributes := match kind with
    | .record attributes => attributes
    | .entity name => ((schema.entity? name).map EntityKind.attributes).getD []
    | _ => []
  (attributes.find? fun candidate => candidate.1 = name).map (·.2)

/-- The entity that an expression names; the action is known in every environment. -/
def literalEntity? (environment : Environment) : Expression → Option EntityUid
  | .constant (.entity uid) => some uid
  | .variable .action => some environment.action.uid
  | _ => none

def knownConstant? (environment : Environment) : Expression → Option Constant
  | .constant value => some value
  | .variable .action => some (.entity environment.action.uid)
  | _ => none

def literalEntities? (environment : Environment) : Expression → Option (List EntityUid)
  | .set elements => elements.mapM (literalEntity? environment)
  | expression => (literalEntity? environment expression).map ([·])

def comparable (place : List Nat) (typed : Typed) (left right : Option Kind) : Typing Typed :=
  match left, right with
  | some left, some right =>
      if (left.join right).isSome then return typed
      else do
        report place ("incompatible " ++ left.describe ++ " and " ++ right.describe)
        return unsound typed.kind
  | _, _ => return typed

/-- The type of an equality, which is known for literals and for entities of two types. -/
def equalityKind (environment : Environment) (left right : Expression)
    (first second : Option Kind) : Kind :=
  match first, second with
  | some (.entity name), some (.entity other) =>
      if name ≠ other then .boolean (some false) else literalEquality
  | _, _ => literalEquality
where
  literalEquality : Kind :=
    match knownConstant? environment left, knownConstant? environment right with
    | some first, some second => .boolean (some (first = second))
    | _, _ => .boolean none

/-- The type of a membership, which is known for actions and where the types rule it out. -/
def membershipKind (schema : Schema) (environment : Environment) (left right : Expression)
    (first second : Option Kind) : Kind :=
  let actionKnown (uid : EntityUid) : Bool := (schema.action? uid).isSome
  match literalEntity? environment left, literalEntities? environment right with
  | some uid, some groups =>
      if actionKnown uid then .boolean (some (groups.any (schema.actionWithin uid))) else byKind
  | _, _ => byKind
where
  byKind : Kind :=
    match first, second with
    | some (.entity name), some (.entity container) => between name container
    | some (.entity name), some (.set (.entity container)) => between name container
    | _, _ => .boolean none
  between (name container : String) : Kind :=
    if schema.mayBeWithin name container then .boolean none else .boolean (some false)

/-- How a fault names the target of an attribute: by the nearest entity, or by the action. -/
def accessRoot (environment : Environment) : Expression → List (Option Kind) → String
  | _, some (.entity name) :: _ => "entity " ++ name
  | .variable .context, _ =>
      "context of " ++ environment.action.uid.kind ++ "::" ++ environment.action.uid.id
  | .attribute target name, _ :: kinds => accessRoot environment target kinds ++ "." ++ name
  | _, _ => "value"

def Function.signature : Function → List Kind × Kind
  | .ip => ([.text], .extended "ipaddr")
  | .decimal => ([.text], .extended "decimal")
  | .datetime => ([.text], .extended "datetime")
  | .duration => ([.text], .extended "duration")
  | .lessThan | .lessThanOrEqual | .greaterThan | .greaterThanOrEqual =>
      ([.extended "decimal", .extended "decimal"], .boolean none)
  | .isIpv4 | .isIpv6 | .isLoopback | .isMulticast => ([.extended "ipaddr"], .boolean none)
  | .isInRange => ([.extended "ipaddr", .extended "ipaddr"], .boolean none)
  | .offset => ([.extended "datetime", .extended "duration"], .extended "datetime")
  | .durationSince => ([.extended "datetime", .extended "datetime"], .extended "duration")
  | .toDate => ([.extended "datetime"], .extended "datetime")
  | .toTime => ([.extended "datetime"], .extended "duration")
  | .toMilliseconds | .toSeconds | .toMinutes | .toHours | .toDays =>
      ([.extended "duration"], .long)

def Function.reads : Function → Bool
  | .ip | .decimal | .datetime | .duration => true
  | _ => false

def Function.accepts (function : Function) (source : String) : Bool :=
  match function with
  | .ip => (AddressRange.parse? source).isSome
  | .decimal => (decimal? source).isSome
  | .datetime => (datetime? source).isSome
  | .duration => (duration? source).isSome
  | _ => true

/-- Faults of the arguments of a function that are not faults of their types. -/
def argumentFault? (function : Function) (arguments : List Expression) : Option String :=
  if arguments.length ≠ function.signature.1.length then some "wrong number of arguments"
  else if function.reads then
    match arguments with
    | [.constant (.text source)] =>
        if function.accepts source then none else some "unreadable argument"
    | [.constant _] => none
    | _ => some "argument is no literal"
  else none

def joinAll (place : List Nat) : List (Option Kind) → Typing (Option Kind)
  | [] => return none
  | first :: rest => do
      match (first :: rest).mapM id with
      | none => return none
      | some kinds =>
          let joined :=
            (kinds.drop 1).foldl (fun joined kind => joined.bind (·.join kind)) kinds.head?
          if joined.isNone then
            report place ("incompatible " ++ ", ".intercalate (kinds.map Kind.describe))
          return joined

def typeAttribute (schema : Schema) (environment : Environment) (granted : List Capability)
    (place : List Nat) (target : Expression) (name : String) (chain : List (Option Kind)) :
    Option Kind → Typing Typed
  | none => return unsound none
  | some kind =>
      match schema.attribute? kind name with
      | some (required, found) => do
          if required || granted.contains (.attribute target name) then return .ok found
          else
            report place ("optional " ++
              accessRoot environment (.attribute target name) (some found :: chain))
            return unsound (some found)
      | none => do
          report place ("unknown " ++
            accessRoot environment (.attribute target name) (none :: chain))
          return unsound none

/-- Whether a target has an attribute: sure for records that always have it, and for what was asked
before. -/
def typeHas (schema : Schema) (granted : List Capability) (target : Expression) (name : String) :
    Option Kind → Typed
  | none => unsound none
  | some kind =>
      match schema.attribute? kind name with
      | none => .ok (.boolean (some false))
      | some (required, _) =>
          let capability : Capability := .attribute target name
          let isRecord := match kind with
            | .record _ => true
            | _ => false
          if granted.contains capability || (required && isRecord) then
            .okWith (.boolean (some true)) [capability]
          else .okWith (.boolean none) [capability]

def orderedKinds : List Kind :=
  [.long, .extended "datetime", .extended "duration"]

def typeOrder (place : List Nat) (left right : Typed) : Typing Typed :=
  left.andThen fun first _ => right.andThen fun second _ =>
    match first, second with
    | some first, some second =>
        if first.fits second then return truth
        else do
          report place ("expected " ++ first.describe ++ ", found " ++ second.describe)
          return unsound (some (.boolean none))
    | _, _ => return truth

def Schema.tags? (schema : Schema) : Kind → Option Kind
  | .entity name => (schema.entity? name).bind EntityKind.tags
  | _ => none

def typeTag (schema : Schema) (granted : List Capability) (place : List Nat) (asks : Bool)
    (left right : Expression) (first : Option Kind) : Typing Typed :=
  match first with
  | none => return unsound (if asks then some (.boolean none) else none)
  | some kind =>
      let capability : Capability := .tag left right
      match schema.tags? kind with
      | none =>
          if asks then return .ok (.boolean (some false))
          else do
            report place ("no tags on " ++ kind.describe)
            return unsound none
      | some found =>
          if asks then
            return .okWith (.boolean (if granted.contains capability then some true else none))
              [capability]
          else if granted.contains capability then return .ok found
          else do
            report place ("tag of " ++ kind.describe ++ " not asked for")
            return unsound (some found)

def shared (left right : List Capability) : List Capability :=
  left.filter right.contains

def conjunctionKind : Option Kind → Option Kind → Kind
  | _, some (.boolean (some false)) => .boolean (some false)
  | some (.boolean (some true)), some kind => kind
  | some kind, some (.boolean (some true)) => kind
  | _, _ => .boolean none

def disjunction (left right : Option Kind) (grants more : List Capability) : Typed :=
  match left, right with
  | some _, some (.boolean (some true)) => .okWith (.boolean (some true)) more
  | some kind, some (.boolean (some false)) => .okWith kind grants
  | some (.boolean (some false)), some kind => .okWith kind more
  | _, _ => .okWith (.boolean none) (shared grants more)

/-- The types met on the way to the root of a chain of attributes, the outermost first. -/
def chainKinds (schema : Schema) (environment : Environment) : Expression → List (Option Kind)
  | .attribute target name =>
      let inner := chainKinds schema environment target
      let here := (inner.headD none).bind fun kind => (schema.attribute? kind name).map (·.2)
      here :: inner
  | .variable .principal => [some (.entity environment.principal)]
  | .variable .resource => [some (.entity environment.resource)]
  | .variable .action => [some (.entity environment.action.uid.kind)]
  | .variable .context => [some (.record environment.action.context)]
  | .constant (.entity uid) => [schema.kindOf? uid]
  | _ => [none]

def allSound (typed : List Typed) : Bool :=
  typed.all Typed.sound

def isKind (found : Option Kind) (name : String) : Kind :=
  match found with
  | some (.entity other) => .boolean (some (name = other))
  | _ => .boolean none

/-- What follows a test of attributes one after the other; each stands for an attribute of the one
before. -/
def typeHasPath (schema : Schema) (environment : Environment) (place : List Nat) :
    (granted : List Capability) → (target : Expression) → (name : String) → List String →
    Option Kind → Typing Typed
  | granted, target, name, [], kind => return typeHas schema granted target name kind
  | granted, target, name, next :: rest, kind =>
      (typeHas schema granted target name kind).andThen fun asked grants =>
        match asked with
        | some (.boolean (some false)) => return .ok (.boolean (some false))
        | asked => do
            let granted := granted ++ grants
            let chain := chainKinds schema environment target
            let inner ← typeAttribute schema environment granted place target name chain kind
            let inner ← inner.expecting place [.anyEntity, .anyRecord]
            inner.andThen fun found _ => do
              let further ← typeHasPath schema environment place granted (.attribute target name)
                next rest found
              further.andThen fun second more =>
                return .okWith (conjunctionKind asked second) (grants ++ more)

mutual
def Expression.typed (schema : Schema) (environment : Environment) (granted : List Capability)
    (place : List Nat) : Expression → Typing Typed
  | .constant (.boolean value) => return .ok (.boolean (some value))
  | .constant (.long _) => return .ok .long
  | .constant (.text _) => return .ok .text
  | .constant (.entity uid) =>
      match schema.kindOf? uid with
      | some kind => return .ok kind
      | none => return unsound none
  | .variable .principal => return .ok (.entity environment.principal)
  | .variable .action => return .ok (.entity environment.action.uid.kind)
  | .variable .resource => return .ok (.entity environment.resource)
  | .variable .context => return .ok (.record environment.action.context)
  | .slot _ => return .ok .anyEntity
  | .choice condition consequence alternative => do
      let test ← condition.typed schema environment granted (0 :: place)
      let test ← test.expecting (0 :: place) [.boolean none]
      test.andThen fun kind grants => do
        match kind with
        | some (.boolean (some true)) =>
            let first ← consequence.typed schema environment (granted ++ grants) (1 :: place)
            first.andThen fun kind more => return ⟨true, kind, more ++ grants⟩
        | some (.boolean (some false)) =>
            alternative.typed schema environment granted (2 :: place)
        | _ =>
            let first ← consequence.typed schema environment (granted ++ grants) (1 :: place)
            let second ← alternative.typed schema environment granted (2 :: place)
            first.andThen fun left more => second.andThen fun right others => do
              match ← joinAll place [left, right] with
              | some joined => return .okWith joined (shared (more ++ grants) others)
              | none => return unsound none
  | .and left right => do
      let first ← left.typed schema environment granted (0 :: place)
      let first ← first.expecting (0 :: place) [.boolean none]
      first.andThen fun kind grants => do
        match kind with
        | some (.boolean (some false)) => return .ok (.boolean (some false))
        | kind =>
            let second ← right.typed schema environment (granted ++ grants) (1 :: place)
            let second ← second.expecting (1 :: place) [.boolean none]
            second.andThen fun other more =>
              return .okWith (conjunctionKind kind other) (grants ++ more)
  | .or left right => do
      let first ← left.typed schema environment granted (0 :: place)
      let first ← first.expecting (0 :: place) [.boolean none]
      first.andThen fun kind grants => do
        match kind with
        | some (.boolean (some true)) => return .okWith (.boolean (some true)) grants
        | kind =>
            let second ← right.typed schema environment granted (1 :: place)
            let second ← second.expecting (1 :: place) [.boolean none]
            second.andThen fun other more => return disjunction kind other grants more
  | .unary operator operand => do
      let inner ← operand.typed schema environment granted (0 :: place)
      match operator with
      | .not =>
          let inner ← inner.expecting (0 :: place) [.boolean none]
          inner.andThen fun kind _ =>
            match kind with
            | some (.boolean known) => return .ok (.boolean (known.map (!·)))
            | _ => return truth
      | .negate =>
          let inner ← inner.expecting (0 :: place) [.long]
          inner.andThen fun _ _ => return .ok .long
      | .isEmpty =>
          let inner ← inner.expecting (0 :: place) [.anySet]
          inner.andThen fun _ _ => return truth
  | .binary operator left right => do
      let first ← left.typed schema environment granted (0 :: place)
      let first ← match operator with
        | .equal => pure first
        | .less | .lessEqual => first.expecting (0 :: place) orderedKinds
        | .plus | .minus | .times => first.expecting (0 :: place) [.long]
        | .within | .getTag | .hasTag => first.expecting (0 :: place) [.anyEntity]
        | .contains | .containsAll | .containsAny => first.expecting (0 :: place) [.anySet]
      let second ← right.typed schema environment granted (1 :: place)
      let second ← match operator with
        | .equal | .contains => pure second
        | .less | .lessEqual => second.expecting (1 :: place) orderedKinds
        | .plus | .minus | .times => second.expecting (1 :: place) [.long]
        | .within => second.expecting (1 :: place) [.set .anyEntity, .anyEntity]
        | .getTag | .hasTag => second.expecting (1 :: place) [.text]
        | .containsAll | .containsAny => second.expecting (1 :: place) [.anySet]
      match operator with
      | .less | .lessEqual => typeOrder place first second
      | operator =>
          first.andThen fun kind _ => second.andThen fun other _ =>
            match operator with
            | .equal =>
                let equality := equalityKind environment left right kind other
                match equality with
                | .boolean (some false) => return .ok equality
                | _ => comparable place (.ok equality) kind other
            | .plus | .minus | .times => return .ok .long
            | .within => return .ok (membershipKind schema environment left right kind other)
            | .contains =>
                let element := match kind with
                  | some (.set element) => some element
                  | _ => none
                comparable place truth element other
            | .getTag => typeTag schema granted place false left right kind
            | .hasTag => typeTag schema granted place true left right kind
            | _ => comparable place truth kind other
  | .call function arguments => do
      let (expected, result) := function.signature
      let fault := argumentFault? function arguments
      match fault with
      | some content => report place content
      | none => pure ()
      let typed ← Expression.typedArguments schema environment granted place 0 expected arguments
      if fault.isNone && allSound typed then return .ok result
      else return unsound (some result)
  | .attribute target name => do
      let inner ← target.typed schema environment granted (0 :: place)
      let inner ← inner.expecting (0 :: place) [.anyEntity, .anyRecord]
      inner.andThen fun kind _ =>
        typeAttribute schema environment granted place target name
          (chainKinds schema environment target) kind
  | .has target first rest => do
      let inner ← target.typed schema environment granted (0 :: place)
      let inner ← inner.expecting (0 :: place) [.anyEntity, .anyRecord]
      inner.andThen fun kind _ =>
        typeHasPath schema environment place granted target first rest kind
  | .like target _ => do
      let inner ← target.typed schema environment granted (0 :: place)
      let inner ← inner.expecting (0 :: place) [.text]
      inner.andThen fun _ _ => return truth
  | .is target kind => do
      let inner ← target.typed schema environment granted (0 :: place)
      let inner ← inner.expecting (0 :: place) [.anyEntity]
      inner.andThen fun found _ => return .ok (isKind found kind)
  | .isWithin target kind container => do
      let inner ← target.typed schema environment granted (0 :: place)
      let inner ← inner.expecting (0 :: place) [.anyEntity]
      inner.andThen fun found _ => do
        match isKind found kind with
        | .boolean (some false) => return .ok (.boolean (some false))
        | matching =>
            let second ← container.typed schema environment granted (1 :: place)
            let second ← second.expecting (1 :: place) [.set .anyEntity, .anyEntity]
            second.andThen fun other _ =>
              let membership := membershipKind schema environment target container found other
              return .ok (conjunctionKind (some matching) (some membership))
  | .set elements => do
      let typed ← Expression.typedList schema environment granted place 0 elements
      if elements.isEmpty then
        report place "empty set"
        return unsound none
      else
        match ← joinAll place (typed.map Typed.kind) with
        | some joined =>
            if allSound typed then return .ok (.set joined)
            else return unsound (some (.set joined))
        | none => return unsound (some .anySet)
  | .record members => do
      let typed ← Expression.typedMembers schema environment granted place 0 members
      match typed.mapM fun (name, typed) => typed.kind.map fun kind => (name, true, kind) with
      | some attributes =>
          if allSound (typed.map (·.2)) then return .ok (.record attributes)
          else return unsound (some (.record attributes))
      | none => return unsound none

def Expression.typedList (schema : Schema) (environment : Environment) (granted : List Capability)
    (place : List Nat) : (position : Nat) → List Expression → Typing (List Typed)
  | _, [] => return []
  | position, first :: rest => do
      let typed ← first.typed schema environment granted (position :: place)
      return typed ::
        (← Expression.typedList schema environment granted place (position + 1) rest)

/-- The arguments of a function, each with the type asked for; what is too much is not looked at.
-/
def Expression.typedArguments (schema : Schema) (environment : Environment)
    (granted : List Capability) (place : List Nat) : (position : Nat) → (expected : List Kind) →
    List Expression → Typing (List Typed)
  | _, _, [] => return []
  | _, [], _ :: _ => return []
  | position, wanted :: expected, first :: rest => do
      let typed ← first.typed schema environment granted (position :: place)
      let typed ← typed.expecting (position :: place) [wanted]
      let others ←
        Expression.typedArguments schema environment granted place (position + 1) expected rest
      return typed :: others

def Expression.typedMembers (schema : Schema) (environment : Environment)
    (granted : List Capability) (place : List Nat) : (position : Nat) →
    List (String × Expression) → Typing (List (String × Typed))
  | _, [] => return []
  | position, (name, first) :: rest => do
      let typed ← first.typed schema environment granted (position :: place)
      return (name, typed) ::
        (← Expression.typedMembers schema environment granted place (position + 1) rest)
end

end PolicyWarden.Cedar
