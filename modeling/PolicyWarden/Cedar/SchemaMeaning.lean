import PolicyWarden.Cedar.Schema
import PolicyWarden.Cedar.SchemaText

/-!
From schemas as written to schemas: every name is looked up in its own namespace, then in the one
without a name, then among the builtin types. A name that is unknown or declared twice, or an
abbreviation or an action group that contains itself, leaves the schema without a meaning. So does
an entity type with the name that types of actions have.
-/

namespace PolicyWarden.Cedar.Schema

def qualify (space : List String) (name : String) : String :=
  "::".intercalate (space ++ [name])

structure Abbreviation where
  name : String
  space : List String
  phrase : TypePhrase

structure Names where
  entities : List String
  abbreviations : List Abbreviation

def builtin? : String → Option Kind
  | "Bool" => some (.boolean none)
  | "Long" => some .long
  | "String" => some .text
  | "ipaddr" => some (.extended "ipaddr")
  | "decimal" => some (.extended "decimal")
  | "datetime" => some (.extended "datetime")
  | "duration" => some (.extended "duration")
  | _ => none

/-- The full names under which a path may be declared, the nearest first. -/
def candidates (space path : List String) : List String :=
  match path with
  | [name] => if space.isEmpty then [name] else [qualify space name, name]
  | _ => ["::".intercalate path]

inductive Referent where
  | abbreviation (found : Abbreviation)
  | entity (name : String)

def Names.find? (names : Names) (name : String) : Option Referent :=
  match List.find? (fun (abbreviation : Abbreviation) => abbreviation.name = name)
    names.abbreviations with
  | some found => some (.abbreviation found)
  | none => if names.entities.contains name then some (.entity name) else none

def Names.entity? (names : Names) (space path : List String) : Option String :=
  (candidates space path).find? names.entities.contains

def builtinPath? : List String → Option Kind
  | [name] => builtin? name
  | ["__cedar", name] => builtin? name
  | _ => none

mutual
/-- The type that a phrase stands for; the fuel bounds how deeply it may be taken apart. -/
def resolve (names : Names) : (fuel : Nat) → (space : List String) → TypePhrase → Option Kind
  | 0, _, _ => none
  | fuel + 1, space, phrase =>
      match phrase with
      | .set element => (resolve names fuel space element).map .set
      | .record attributes => (resolveAttributes names fuel space attributes).map .record
      | .named path =>
          match (candidates space path).findSome? names.find? with
          | some (.abbreviation found) => resolve names fuel found.space found.phrase
          | some (.entity name) => some (.entity name)
          | none => builtinPath? path

def resolveAttributes (names : Names) : (fuel : Nat) → (space : List String) →
    List (String × Bool × TypePhrase) → Option (List (String × Bool × Kind))
  | 0, _, _ => none
  | _, _, [] => some []
  | fuel + 1, space, (name, required, phrase) :: rest => do
      let kind ← resolve names fuel space phrase
      let others ← resolveAttributes names fuel space rest
      if others.any (·.1 = name) then none
      else return (name, required, kind) :: others
end

def reservedAbbreviations : List String :=
  ["Bool", "Boolean", "Entity", "Extension", "Long", "Record", "Set", "String"]

def Declaration.entityNames : Declaration → List String
  | .entity names _ _ _ => names
  | .choice names _ => names
  | _ => []

def Declaration.abbreviated : Declaration → List (String × TypePhrase)
  | .abbreviation name phrase => [(name, phrase)]
  | _ => []

def Declaration.actionNames : Declaration → List String
  | .action names _ _ => names
  | _ => []

def allDistinct (names : List String) : Bool :=
  names.eraseDups.length = names.length

def actionKind (space : List String) : String :=
  qualify space "Action"

def entityKinds? (names : Names) (fuel : Nat) (space : List String) :
    Declaration → Option (List EntityKind)
  | .entity declared containers attributes tags => do
      let containers ← containers.mapM (names.entity? space)
      let attributes ← resolveAttributes names fuel space attributes
      let tags ← match tags with
        | some phrase => (resolve names fuel space phrase).map some
        | none => some none
      return declared.map fun name =>
        { name := qualify space name, containers, attributes, tags }
  | .choice declared ids =>
      if allDistinct ids then
        some (declared.map fun name => { name := qualify space name, choices := some ids })
      else none
  | _ => some []

/-- The action that a reference means: one of its own namespace if no type is given. -/
def ActionReference.uid (space : List String) (reference : ActionReference) : EntityUid :=
  match reference.path with
  | [] => ⟨actionKind space, reference.id⟩
  | path => ⟨"::".intercalate path, reference.id⟩

def actionKinds? (names : Names) (fuel : Nat) (space : List String) :
    Declaration → Option (List ActionKind)
  | .action declared groups application => do
      let application := application.getD {}
      let principals ← (application.principals.getD []).mapM (names.entity? space)
      let resources ← (application.resources.getD []).mapM (names.entity? space)
      let context ← match application.context with
        | none => some []
        | some phrase =>
            match resolve names fuel space phrase with
            | some (.record attributes) => some attributes
            | _ => none
      return declared.map fun name =>
        { uid := ⟨actionKind space, name⟩
          groups := groups.map (ActionReference.uid space)
          principals := principals.eraseDups
          resources := resources.eraseDups
          context }
  | _ => some []

def hasActionCycle (schema : Schema) : Bool :=
  schema.actions.any fun action =>
    (schema.reachableActions schema.actions.length action.groups).contains action.uid

def TypePhrase.size : TypePhrase → Nat
  | .named _ => 1
  | .set element => element.size + 1
  | .record attributes => sizeOfAttributes attributes + 1
where
  sizeOfAttributes : List (String × Bool × TypePhrase) → Nat
    | [] => 0
    | (_, _, phrase) :: rest => phrase.size + sizeOfAttributes rest + 1

def Declaration.size : Declaration → Nat
  | .entity _ _ attributes tags =>
      (TypePhrase.record attributes).size + ((tags.map TypePhrase.size).getD 0)
  | .action _ _ application => ((application.bind Application.context).map TypePhrase.size).getD 0
  | .abbreviation _ phrase => phrase.size
  | .choice _ _ => 0

/-- Names of a namespace that also stand outside all namespaces. -/
def shadows (spaces : List NamespacePhrase) (declared : Declaration → List String) : Bool :=
  let outer := (spaces.filter (·.path.isEmpty)).flatMap fun space =>
    space.declarations.flatMap declared
  (spaces.filter (!·.path.isEmpty)).any fun space =>
    (space.declarations.flatMap declared).any outer.contains

def parse? (source : String) : Option Schema := do
  let spaces ← phrases? source
  let located := spaces.flatMap fun space => space.declarations.map fun declared =>
    (space.path, declared)
  let entities := located.flatMap fun (space, declared) =>
    declared.entityNames.map (qualify space)
  let abbreviations := located.flatMap fun (space, declared) =>
    declared.abbreviated.map fun (name, phrase) =>
      (⟨qualify space name, space, phrase⟩ : Abbreviation)
  let actions := located.flatMap fun (space, declared) =>
    declared.actionNames.map fun name => actionKind space ++ "::" ++ name
  let own := located.flatMap fun (_, declared) => declared.abbreviated.map (·.1)
  let entityNames := located.flatMap fun (_, declared) => declared.entityNames
  let typeNames (declared : Declaration) : List String :=
    declared.entityNames ++ declared.abbreviated.map (·.1)
  let namedSpaces := (spaces.filter (!·.path.isEmpty)).map fun space => "::".intercalate space.path
  if !allDistinct (entities ++ abbreviations.map Abbreviation.name) || !allDistinct actions ||
      !allDistinct namedSpaces || own.any reservedAbbreviations.contains ||
      entityNames.contains "Action" || shadows spaces typeNames ||
      shadows spaces Declaration.actionNames then none
  else
    let names : Names := ⟨entities, abbreviations⟩
    let fuel := located.foldl (fun fuel (_, declared) => fuel + declared.size + 2) 2
    let _ ← abbreviations.mapM fun abbreviation =>
      resolve names fuel abbreviation.space abbreviation.phrase
    let entities ← located.mapM fun (space, declared) => entityKinds? names fuel space declared
    let actions ← located.mapM fun (space, declared) => actionKinds? names fuel space declared
    let schema : Schema := ⟨entities.flatten, actions.flatten⟩
    let known := schema.actions.map ActionKind.uid
    if schema.actions.all (fun action => action.groups.all known.contains) &&
        !hasActionCycle schema then
      return schema
    else none

end PolicyWarden.Cedar.Schema
