import PolicyWarden.Cedar.Text

/-!
What policies say: expressions over a request and the entities it is about, and policies built from
them.
-/

namespace PolicyWarden.Cedar

structure EntityUid where
  kind : String
  id : String
deriving DecidableEq, Repr

inductive Variable where
  | principal
  | action
  | resource
  | context
deriving DecidableEq, Repr

inductive Constant where
  | boolean (value : Bool)
  | long (value : Int)
  | text (value : String)
  | entity (uid : EntityUid)
deriving DecidableEq, Repr

inductive Unary where
  | not
  | negate
  | isEmpty
deriving DecidableEq, Repr

inductive Binary where
  | equal
  | less
  | lessEqual
  | plus
  | minus
  | times
  | within
  | contains
  | containsAll
  | containsAny
  | getTag
  | hasTag
deriving DecidableEq, Repr

inductive Function where
  | ip
  | decimal
  | datetime
  | duration
  | lessThan
  | lessThanOrEqual
  | greaterThan
  | greaterThanOrEqual
  | isIpv4
  | isIpv6
  | isLoopback
  | isMulticast
  | isInRange
  | offset
  | durationSince
  | toDate
  | toTime
  | toMilliseconds
  | toSeconds
  | toMinutes
  | toHours
  | toDays
deriving DecidableEq, Repr

def Function.called? : String → Option Function
  | "ip" => some .ip
  | "decimal" => some .decimal
  | "datetime" => some .datetime
  | "duration" => some .duration
  | _ => none

def Function.method? : String → Option Function
  | "lessThan" => some .lessThan
  | "lessThanOrEqual" => some .lessThanOrEqual
  | "greaterThan" => some .greaterThan
  | "greaterThanOrEqual" => some .greaterThanOrEqual
  | "isIpv4" => some .isIpv4
  | "isIpv6" => some .isIpv6
  | "isLoopback" => some .isLoopback
  | "isMulticast" => some .isMulticast
  | "isInRange" => some .isInRange
  | "offset" => some .offset
  | "durationSince" => some .durationSince
  | "toDate" => some .toDate
  | "toTime" => some .toTime
  | "toMilliseconds" => some .toMilliseconds
  | "toSeconds" => some .toSeconds
  | "toMinutes" => some .toMinutes
  | "toHours" => some .toHours
  | "toDays" => some .toDays
  | _ => none

inductive Expression where
  | constant (value : Constant)
  | variable (name : Variable)
  | slot (name : Variable)
  | choice (condition consequence alternative : Expression)
  | and (left right : Expression)
  | or (left right : Expression)
  | unary (operator : Unary) (operand : Expression)
  | binary (operator : Binary) (left right : Expression)
  | call (function : Function) (arguments : List Expression)
  | attribute (target : Expression) (name : String)
  /-- Whether the target has the first attribute, that one the next, and so on. -/
  | has (target : Expression) (first : String) (rest : List String)
  | like (target : Expression) (pattern : List Text.Wild)
  | is (target : Expression) (kind : String)
  | isWithin (target : Expression) (kind : String) (container : Expression)
  | set (elements : List Expression)
  | record (members : List (String × Expression))
deriving Inhabited, Repr

mutual
def Expression.slots : Expression → Nat
  | .constant _ => 0
  | .variable _ => 0
  | .slot _ => 1
  | .choice condition consequence alternative =>
      condition.slots + consequence.slots + alternative.slots
  | .and left right => left.slots + right.slots
  | .or left right => left.slots + right.slots
  | .unary _ operand => operand.slots
  | .binary _ left right => left.slots + right.slots
  | .call _ arguments => Expression.slotsOfList arguments
  | .attribute target _ => target.slots
  | .has target _ _ => target.slots
  | .like target _ => target.slots
  | .is target _ => target.slots
  | .isWithin target _ container => target.slots + container.slots
  | .set elements => Expression.slotsOfList elements
  | .record members => Expression.slotsOfMembers members

def Expression.slotsOfList : List Expression → Nat
  | [] => 0
  | expression :: rest => expression.slots + Expression.slotsOfList rest

def Expression.slotsOfMembers : List (String × Expression) → Nat
  | [] => 0
  | (_, expression) :: rest => expression.slots + Expression.slotsOfMembers rest
end

inductive Effect where
  | permit
  | forbid
deriving DecidableEq, Repr

inductive Target where
  | entity (uid : EntityUid)
  | slot
deriving DecidableEq, Repr

inductive Constraint where
  | any
  | equal (target : Target)
  | within (target : Target)
  | is (kind : String)
  | isWithin (kind : String) (target : Target)
deriving DecidableEq, Repr

inductive ActionConstraint where
  | any
  | equal (uid : EntityUid)
  | within (uids : List EntityUid)
deriving DecidableEq, Repr

structure Policy where
  effect : Effect
  principal : Constraint
  action : ActionConstraint
  resource : Constraint
  conditions : List Expression
deriving Repr

def Target.expression (name : Variable) : Target → Expression
  | .entity uid => .constant (.entity uid)
  | .slot => .slot name

def Constraint.expression (name : Variable) : Constraint → Expression
  | .any => .constant (.boolean true)
  | .equal target => .binary .equal (.variable name) (target.expression name)
  | .within target => .binary .within (.variable name) (target.expression name)
  | .is kind => .is (.variable name) kind
  | .isWithin kind target => .isWithin (.variable name) kind (target.expression name)

def ActionConstraint.expression : ActionConstraint → Expression
  | .any => .constant (.boolean true)
  | .equal uid => .binary .equal (.variable .action) (.constant (.entity uid))
  | .within uids =>
      .binary .within (.variable .action) (.set (uids.map fun uid => .constant (.entity uid)))

def Constraint.isOpen : Constraint → Bool
  | .equal .slot => true
  | .within .slot => true
  | .isWithin _ .slot => true
  | _ => false

/-- A policy with a place left open applies to no request until that is filled. -/
def Policy.isTemplate (policy : Policy) : Bool :=
  policy.principal.isOpen || policy.resource.isOpen

def Policy.condition (policy : Policy) : Expression :=
  .and (policy.principal.expression .principal) <|
    .and policy.action.expression <|
      match policy.conditions with
      | [] => policy.resource.expression .resource
      | first :: rest =>
          .and (policy.resource.expression .resource) (rest.foldl .and first)

end PolicyWarden.Cedar
