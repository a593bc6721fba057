import PolicyWarden.Cedar.PolicyText
import PolicyWarden.Cedar.Typing

/-!
Validation of policies against a schema: the names in a policy must be known, and its condition must
be well-typed for everything that a request may be about. The number of faults is what is answered.
-/

namespace PolicyWarden.Cedar

inductive Mention where
  | entity (uid : EntityUid)
  | kind (name : String)
deriving DecidableEq, Repr

mutual
/-- The entities and types that an expression names, once for each time it does. Where several
things are asked of one target, it is named for each of them. -/
def Expression.mentions : Expression → List Mention
  | .constant (.entity uid) => [.entity uid]
  | .constant _ => []
  | .variable _ => []
  | .slot _ => []
  | .choice condition consequence alternative =>
      condition.mentions ++ consequence.mentions ++ alternative.mentions
  | .and left right => left.mentions ++ right.mentions
  | .or left right => left.mentions ++ right.mentions
  | .unary _ operand => operand.mentions
  | .binary _ left right => left.mentions ++ right.mentions
  | .call _ arguments => Expression.mentionsOfList arguments
  | .attribute target _ => target.mentions
  | .has target _ rest => (List.replicate (rest.length + 1) target.mentions).flatten
  | .like target _ => target.mentions
  | .is target kind => .kind kind :: target.mentions
  | .isWithin target kind container =>
      .kind kind :: target.mentions ++ target.mentions ++ container.mentions
  | .set elements => Expression.mentionsOfList elements
  | .record members => Expression.mentionsOfMembers members

def Expression.mentionsOfList : List Expression → List Mention
  | [] => []
  | first :: rest => first.mentions ++ Expression.mentionsOfList rest

def Expression.mentionsOfMembers : List (String × Expression) → List Mention
  | [] => []
  | (_, first) :: rest => first.mentions ++ Expression.mentionsOfMembers rest
end

namespace Schema

/-- Whether a type is in the schema; a type of actions always counts as known. -/
def knows (schema : Schema) (name : String) : Bool :=
  (EntityUid.mk name "").isAction || (schema.entity? name).isSome

def mentionFaults (schema : Schema) : Mention → Nat
  | .kind name => if schema.knows name then 0 else 1
  | .entity uid =>
      let listed := match (schema.entity? uid.kind).bind EntityKind.choices with
        | some choices => choices.contains uid.id
        | none => true
      let action := !uid.isAction || (schema.action? uid).isSome
      [schema.knows uid.kind, action, listed].count false

def environments (schema : Schema) : List Environment :=
  schema.actions.flatMap fun action => action.principals.flatMap fun principal =>
    action.resources.map fun resource => { principal, action, resource }

/-- The faults of a condition, those of several environments counted once. -/
def typeFaults (schema : Schema) (condition : Expression) : List TypeFault :=
  let faults := schema.environments.flatMap fun environment =>
    let check : Typing Typed := do
      let typed ← condition.typed schema environment [] []
      typed.expecting [] [.boolean none]
    (check.run []).2
  faults.eraseDups

def policyFaults (schema : Schema) (policy : Policy) : Nat :=
  Checked.total (policy.condition.mentions.map schema.mentionFaults) +
    (schema.typeFaults policy.condition).length

/-- The number of faults of all policies, templates included. -/
def faults (schema : Schema) (policies : List Policy) : Nat :=
  Checked.total (policies.map schema.policyFaults)

end Schema

end PolicyWarden.Cedar
