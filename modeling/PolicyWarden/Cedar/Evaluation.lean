import PolicyWarden.Cedar.Value

/-!
The value of an expression for a request and a set of entities, and the decision that policies come
to. An expression without a value is an error of the policy it stands in, which then does not count.
-/

namespace PolicyWarden.Cedar

/-- What is known of an entity; its ancestors are all that it is within, near or far. -/
structure Entity where
  uid : EntityUid
  attributes : List (String × Value) := []
  ancestors : List EntityUid := []
  tags : List (String × Value) := []
deriving Repr

abbrev Entities := List Entity

def Entities.find (entities : Entities) (uid : EntityUid) : Option Entity :=
  List.find? (fun entity => entity.uid = uid) entities

def Entities.within (entities : Entities) (uid container : EntityUid) : Bool :=
  uid = container ||
    match entities.find uid with
    | some entity => entity.ancestors.contains container
    | none => false

structure Request where
  principal : EntityUid
  action : EntityUid
  resource : EntityUid
  context : List (String × Value) := []
deriving Repr

def Request.value (request : Request) : Variable → Value
  | .principal => .entity request.principal
  | .action => .entity request.action
  | .resource => .entity request.resource
  | .context => .record request.context

def Constant.value : Constant → Value
  | .boolean value => .boolean value
  | .long value => .long value
  | .text value => .text value
  | .entity uid => .entity uid

def Value.boolean? : Value → Option Bool
  | .boolean value => some value
  | _ => none

def Value.entity? : Value → Option EntityUid
  | .entity uid => some uid
  | _ => none

def ordered (strict : Bool) (left right : Value) : Option Value :=
  let decide (left right : Int) : Option Value :=
    some (.boolean (if strict then left < right else left ≤ right))
  match left, right with
  | .long left, .long right => decide left right
  | .extended (.moment left), .extended (.moment right) => decide left right
  | .extended (.span left), .extended (.span right) => decide left right
  | _, _ => none

def evaluateUnary : Unary → Value → Option Value
  | .not, .boolean value => some (.boolean !value)
  | .negate, .long value => (boundedLong (-value)).map .long
  | .isEmpty, .set elements => some (.boolean elements.isEmpty)
  | _, _ => none

def includes (elements : List Value) (value : Value) : Bool :=
  elements.any value.equals

def evaluateBinary (entities : Entities) : Binary → Value → Value → Option Value
  | .equal, left, right => some (.boolean (left.equals right))
  | .less, left, right => ordered true left right
  | .lessEqual, left, right => ordered false left right
  | .plus, .long left, .long right => (boundedLong (left + right)).map .long
  | .minus, .long left, .long right => (boundedLong (left - right)).map .long
  | .times, .long left, .long right => (boundedLong (left * right)).map .long
  | .within, .entity uid, .entity container => some (.boolean (entities.within uid container))
  | .within, .entity uid, .set containers => do
      let containers ← containers.mapM Value.entity?
      return .boolean (containers.any (entities.within uid))
  | .contains, .set elements, value => some (.boolean (includes elements value))
  | .containsAll, .set elements, .set wanted => some (.boolean (wanted.all (includes elements)))
  | .containsAny, .set elements, .set wanted => some (.boolean (wanted.any (includes elements)))
  | .getTag, .entity uid, .text name => do
      let entity ← entities.find uid
      Value.memberNamed? name entity.tags
  | .hasTag, .entity uid, .text name =>
      match entities.find uid with
      | some entity => some (.boolean (Value.memberNamed? name entity.tags).isSome)
      | none => some (.boolean false)
  | _, _, _ => none

def boundedSpan (milliseconds : Int) : Option Value :=
  (boundedLong milliseconds).map fun milliseconds => .extended (.span milliseconds)

def boundedMoment (milliseconds : Int) : Option Value :=
  (boundedLong milliseconds).map fun milliseconds => .extended (.moment milliseconds)

def evaluateCall : Function → List Value → Option Value
  | .ip, [.text source] => (AddressRange.parse? source).map fun range => .extended (.address range)
  | .decimal, [.text source] => (decimal? source).map fun units => .extended (.decimal units)
  | .datetime, [.text source] => (datetime? source).map fun moment => .extended (.moment moment)
  | .duration, [.text source] => (duration? source).map fun span => .extended (.span span)
  | .lessThan, [.extended (.decimal left), .extended (.decimal right)] =>
      some (.boolean (left < right))
  | .lessThanOrEqual, [.extended (.decimal left), .extended (.decimal right)] =>
      some (.boolean (left ≤ right))
  | .greaterThan, [.extended (.decimal left), .extended (.decimal right)] =>
      some (.boolean (right < left))
  | .greaterThanOrEqual, [.extended (.decimal left), .extended (.decimal right)] =>
      some (.boolean (right ≤ left))
  | .isIpv4, [.extended (.address range)] => some (.boolean !range.long)
  | .isIpv6, [.extended (.address range)] => some (.boolean range.long)
  | .isLoopback, [.extended (.address range)] => some (.boolean range.isLoopback)
  | .isMulticast, [.extended (.address range)] => some (.boolean range.isMulticast)
  | .isInRange, [.extended (.address range), .extended (.address other)] =>
      some (.boolean (range.isWithin other))
  | .offset, [.extended (.moment moment), .extended (.span span)] => boundedMoment (moment + span)
  | .durationSince, [.extended (.moment later), .extended (.moment earlier)] =>
      boundedSpan (later - earlier)
  | .toDate, [.extended (.moment moment)] => boundedMoment (moment / dayLength * dayLength)
  | .toTime, [.extended (.moment moment)] => some (.extended (.span (moment % dayLength)))
  | .toMilliseconds, [.extended (.span span)] => some (.long span)
  | .toSeconds, [.extended (.span span)] => some (.long (span.tdiv 1000))
  | .toMinutes, [.extended (.span span)] => some (.long (span.tdiv 60000))
  | .toHours, [.extended (.span span)] => some (.long (span.tdiv 3600000))
  | .toDays, [.extended (.span span)] => some (.long (span.tdiv 86400000))
  | _, _ => none

def attributeOf (entities : Entities) (target : Value) (name : String) : Option Value :=
  match target with
  | .record members => Value.memberNamed? name members
  | .entity uid => do Value.memberNamed? name (← entities.find uid).attributes
  | _ => none

def hasAttribute (entities : Entities) (target : Value) (name : String) : Option Bool :=
  match target with
  | .record members => some (Value.memberNamed? name members).isSome
  | .entity uid =>
      some ((entities.find uid).any fun entity =>
        (Value.memberNamed? name entity.attributes).isSome)
  | _ => none

def hasAttributes (entities : Entities) (target : Value) (name : String) :
    List String → Option Bool
  | [] => hasAttribute entities target name
  | next :: rest => do
      if ← hasAttribute entities target name then
        hasAttributes entities (← attributeOf entities target name) next rest
      else return false

mutual
def Expression.evaluate (request : Request) (entities : Entities) : Expression → Option Value
  | .constant value => some value.value
  | .variable name => some (request.value name)
  | .slot _ => none
  | .choice condition consequence alternative => do
      let chosen ← (← condition.evaluate request entities).boolean?
      if chosen then consequence.evaluate request entities
      else alternative.evaluate request entities
  | .and left right => do
      let first ← (← left.evaluate request entities).boolean?
      if first then
        let second ← (← right.evaluate request entities).boolean?
        return .boolean second
      else return .boolean false
  | .or left right => do
      let first ← (← left.evaluate request entities).boolean?
      if first then return .boolean true
      else
        let second ← (← right.evaluate request entities).boolean?
        return .boolean second
  | .unary operator operand => do evaluateUnary operator (← operand.evaluate request entities)
  | .binary operator left right => do
      let left ← left.evaluate request entities
      let right ← right.evaluate request entities
      evaluateBinary entities operator left right
  | .call function arguments => do
      evaluateCall function (← Expression.evaluateAll request entities arguments)
  | .attribute target name => do attributeOf entities (← target.evaluate request entities) name
  | .has target first rest => do
      let target ← target.evaluate request entities
      return .boolean (← hasAttributes entities target first rest)
  | .like target pattern => do
      match ← target.evaluate request entities with
      | .text value => return .boolean (Text.matchesPattern pattern value)
      | _ => none
  | .is target kind => do
      let uid ← (← target.evaluate request entities).entity?
      return .boolean (uid.kind = kind)
  | .isWithin target kind container => do
      let uid ← (← target.evaluate request entities).entity?
      if uid.kind = kind then
        evaluateBinary entities .within (.entity uid) (← container.evaluate request entities)
      else return .boolean false
  | .set elements => do
      return Value.ofElements (← Expression.evaluateAll request entities elements)
  | .record members => do
      return Value.ofMembers (← Expression.evaluateMembers request entities members)

def Expression.evaluateAll (request : Request) (entities : Entities) :
    List Expression → Option (List Value)
  | [] => some []
  | first :: rest => do
      let value ← first.evaluate request entities
      return value :: (← Expression.evaluateAll request entities rest)

def Expression.evaluateMembers (request : Request) (entities : Entities) :
    List (String × Expression) → Option (List (String × Value))
  | [] => some []
  | (name, first) :: rest => do
      let value ← first.evaluate request entities
      return (name, value) :: (← Expression.evaluateMembers request entities rest)
end

/-- Whether a policy applies to a request; none if that has no answer. -/
def Policy.applies (policy : Policy) (request : Request) (entities : Entities) : Option Bool := do
  (← policy.condition.evaluate request entities).boolean?

structure NumberedPolicy where
  number : Nat
  policy : Policy
deriving Repr

def NumberedPolicy.id (numbered : NumberedPolicy) : String :=
  "policy" ++ toString numbered.number

/-- The policies of a text; templates keep their numbers and decide nothing. -/
abbrev PolicySet := List NumberedPolicy

def PolicySet.ofPolicies (policies : List Policy) : PolicySet :=
  (policies.zipIdx.map fun (policy, number) => ⟨number, policy⟩).filter (!·.policy.isTemplate)

structure Decision where
  allowed : Bool
  reasons : List String
  errors : List String
deriving DecidableEq, Repr

/-- A request is allowed if a permission applies and no prohibition does. -/
def PolicySet.decide (policies : PolicySet) (request : Request) (entities : Entities) : Decision :=
  let applying (effect : Effect) : PolicySet := List.filter (fun numbered =>
    numbered.policy.effect = effect &&
      numbered.policy.applies request entities = some true) policies
  let permits := applying .permit
  let forbids := applying .forbid
  let failing := List.filter (fun (numbered : NumberedPolicy) =>
    (numbered.policy.applies request entities).isNone) policies
  let allowed := forbids.isEmpty && !permits.isEmpty
  let reasons := if forbids.isEmpty then permits else forbids
  ⟨allowed, reasons.map NumberedPolicy.id, failing.map NumberedPolicy.id⟩

end PolicyWarden.Cedar
