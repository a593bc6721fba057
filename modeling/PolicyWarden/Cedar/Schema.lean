import PolicyWarden.Cedar.Expression

/-!
Schemas: which types of entities there are, what attributes they have and which actions apply to
them.
-/

namespace PolicyWarden.Cedar

inductive Kind where
  /-- The truth values; `some` if it is known which one. -/
  | boolean (known : Option Bool)
  | long
  | text
  | extended (name : String)
  | entity (name : String)
  | anyEntity
  | set (element : Kind)
  | anySet
  /-- Each attribute with its type, marked if it is always there. -/
  | record (attributes : List (String × Bool × Kind))
  | anyRecord
deriving Inhabited, Repr

mutual
def Kind.describe : Kind → String
  | .boolean none => "Bool"
  | .boolean (some true) => "True"
  | .boolean (some false) => "False"
  | .long => "Long"
  | .text => "String"
  | .extended name => "__cedar::" ++ name
  | .entity name => "entity " ++ name
  | .anyEntity => "entity"
  | .set element => "Set<" ++ element.describe ++ ">"
  | .anySet => "Set"
  | .record attributes => "record(" ++ Kind.describeAttributes attributes ++ ")"
  | .anyRecord => "record"

def Kind.describeAttributes : List (String × Bool × Kind) → String
  | [] => ""
  | (name, required, kind) :: rest =>
      name ++ (if required then ":" else "?:") ++ kind.describe ++ "," ++
        Kind.describeAttributes rest
end

structure EntityKind where
  name : String
  /-- The types of entities that one of this type may be directly within. -/
  containers : List String := []
  attributes : List (String × Bool × Kind) := []
  tags : Option Kind := none
  /-- The only identifiers of the type, if it lists them. -/
  choices : Option (List String) := none

structure ActionKind where
  uid : EntityUid
  groups : List EntityUid := []
  principals : List String := []
  resources : List String := []
  context : List (String × Bool × Kind) := []

structure Schema where
  entities : List EntityKind
  actions : List ActionKind

namespace Schema

def entity? (schema : Schema) (name : String) : Option EntityKind :=
  schema.entities.find? fun kind => kind.name = name

def action? (schema : Schema) (uid : EntityUid) : Option ActionKind :=
  schema.actions.find? fun action => action.uid = uid

def reachable (schema : Schema) : (steps : Nat) → List String → List String
  | 0, names => names
  | steps + 1, names =>
      let further := names.flatMap fun name =>
        ((schema.entity? name).map EntityKind.containers).getD []
      schema.reachable steps (names ++ further).eraseDups

def mayBeWithin (schema : Schema) (name container : String) : Bool :=
  (schema.reachable schema.entities.length [name]).contains container

def reachableActions (schema : Schema) : (steps : Nat) → List EntityUid → List EntityUid
  | 0, uids => uids
  | steps + 1, uids =>
      let further := uids.flatMap fun uid => ((schema.action? uid).map ActionKind.groups).getD []
      schema.reachableActions steps (uids ++ further).eraseDups

def actionWithin (schema : Schema) (uid group : EntityUid) : Bool :=
  (schema.reachableActions schema.actions.length [uid]).contains group

end Schema

end PolicyWarden.Cedar
