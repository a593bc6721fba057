import PolicyWarden.Cedar.Evaluation
import PolicyWarden.Json.Basic

/-!
Values and entities from JSON. An object with the member `__entity` stands for an entity, one with
`__extn` for the value of a function; all other objects are records.
-/

namespace PolicyWarden.Cedar

def EntityUid.ofMembers? (document : Json) : Option EntityUid := do
  return ⟨← (document.member "type").text?, ← (document.member "id").text?⟩

def EntityUid.ofJson? (document : Json) : Option EntityUid :=
  match document.member? "__entity" with
  | some inner => EntityUid.ofMembers? inner
  | none => EntityUid.ofMembers? document

def Value.ofCall? (name : String) (argument : Value) : Option Value := do
  evaluateCall (← Function.called? name) [argument]

mutual
def Value.ofJson? : Json → Option Value
  | .null => none
  | .boolean value => some (.boolean value)
  | .integer value => (boundedLong value).map .long
  | .real _ => none
  | .text value => some (.text value)
  | .array elements => do return Value.ofElements (← Value.listOfJson? elements)
  | .object [("__entity", inner)] => (EntityUid.ofMembers? inner).map .entity
  | .object [("__extn", inner)] => do
      let name ← (inner.member "fn").text?
      match inner.member "arg" with
      | .text argument => Value.ofCall? name (.text argument)
      | _ => none
  | .object members => do return Value.ofMembers (← Value.membersOfJson? members)

def Value.listOfJson? : List Json → Option (List Value)
  | [] => some []
  | first :: rest => do
      let value ← Value.ofJson? first
      return value :: (← Value.listOfJson? rest)

def Value.membersOfJson? : List (String × Json) → Option (List (String × Value))
  | [] => some []
  | (name, first) :: rest => do
      let value ← Value.ofJson? first
      return (name, value) :: (← Value.membersOfJson? rest)
end

def recordOfJson? : Json → Option (List (String × Value))
  | .null => some []
  | .object members => do
      match ← Value.ofJson? (.object members) with
      | .record members => return members
      | _ => none
  | _ => none

/-- An entity with its parents, which are its ancestors so far. -/
def Entity.ofJson? (document : Json) : Option Entity := do
  let uid ← EntityUid.ofJson? (document.member "uid")
  let attributes ← recordOfJson? (document.member "attrs")
  let parents ← ((document.member "parents").elements?.getD []).mapM EntityUid.ofJson?
  let tags ← recordOfJson? (document.member "tags")
  return { uid, attributes, ancestors := parents.eraseDups, tags }

def Entities.extend (entities : Entities) : Entities :=
  entities.map fun entity =>
    let further := entity.ancestors.flatMap fun uid =>
      ((entities.find uid).map Entity.ancestors).getD []
    { entity with ancestors := (entity.ancestors ++ further).eraseDups }

/-- Extends until every path between entities is covered. -/
def Entities.close : (rounds : Nat) → Entities → Entities
  | 0, entities => entities
  | rounds + 1, entities => Entities.close rounds entities.extend

def Entities.ofJson? (document : Json) : Option Entities := do
  let entities ← (document.elements?.getD []).mapM Entity.ofJson?
  return Entities.close entities.length entities

def Request.ofJson? (document : Json) : Option Request := do
  let principal ← EntityUid.ofMembers? (document.member "principal")
  let action ← EntityUid.ofMembers? (document.member "action")
  let resource ← EntityUid.ofMembers? (document.member "resource")
  let context ← recordOfJson? (document.member "context")
  return { principal, action, resource, context }

end PolicyWarden.Cedar
