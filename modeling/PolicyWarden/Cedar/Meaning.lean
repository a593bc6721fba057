import PolicyWarden.Cedar.Expression
import PolicyWarden.Cedar.Parser
import PolicyWarden.Number.Width

/-!
From policies as written to policies with a meaning. What has no meaning is counted, part by part,
so that all faults of a text are known at once.
-/

namespace PolicyWarden.Cedar

/-- A value, or the number of faults found in its place. -/
abbrev Checked (α : Type) := Except Nat α

namespace Checked

variable {α β : Type}

def fault : Checked α := .error 1

def both : Checked α → Checked β → Checked (α × β)
  | .ok left, .ok right => .ok (left, right)
  | .ok _, .error faults => .error faults
  | .error faults, .ok _ => .error faults
  | .error left, .error right => .error (left + right)

def all : List (Checked α) → Checked (List α)
  | [] => .ok []
  | first :: rest => (both first (all rest)).map fun (first, rest) => first :: rest

def total (faults : List Nat) : Nat :=
  faults.foldl (· + ·) 0

def require (faults : Nat) : Checked Unit :=
  if faults = 0 then .ok () else .error faults

end Checked

def isReserved (name : String) : Bool :=
  ["true", "false", "if", "then", "else", "in", "is", "has", "like"].contains name

def isOwn (name : String) : Bool :=
  name = "__cedar"

namespace Path

def parts (path : Path) : List String :=
  path.spaces ++ [path.base]

def text (path : Path) : String :=
  "::".intercalate path.parts

/-- The name as text; each reserved word in it is a fault. -/
def checked (path : Path) : Checked String :=
  let reserved := (path.parts.filter isReserved).length
  if reserved > 0 then .error reserved
  else if path.parts.any isOwn then Checked.fault
  else .ok path.text

end Path

/-- What an operand stands for, before it is known how it is used. -/
inductive Operand where
  | expression (value : Expression)
  | variable (name : Variable)
  | name (path : Path)
  | text (raw : List Char)
  | boolean (value : Bool)

namespace Operand

def variableNamed? : String → Option Variable
  | "principal" => some .principal
  | "action" => some .action
  | "resource" => some .resource
  | "context" => some .context
  | _ => none

def variableName : Variable → String
  | .principal => "principal"
  | .action => "action"
  | .resource => "resource"
  | .context => "context"

def toExpression : Operand → Checked Expression
  | .expression value => .ok value
  | .variable which => .ok (.variable which)
  | .name _ => Checked.fault
  | .text raw => (Text.unescape raw).map fun value => .constant (.text value)
  | .boolean value => .ok (.constant (.boolean value))

def toKind : Operand → Checked String
  | .variable which => .ok (variableName which)
  | .name path => .ok path.text
  | _ => Checked.fault

def toPattern : Operand → Checked (List Text.Wild)
  | .text raw => Text.pattern raw
  | _ => Checked.fault

def toIndex : Operand → Checked String
  | .text raw => Text.unescape raw
  | _ => Checked.fault

/-- The operand as the name of a member of a record. -/
def toMemberName : Operand → Checked String
  | .variable which => .ok (variableName which)
  | .name path => if path.spaces.isEmpty then .ok path.base else Checked.fault
  | .text raw => Text.unescape raw
  | _ => Checked.fault

end Operand

def fieldName (name : String) : Checked String :=
  if isReserved name || isOwn name then Checked.fault else .ok name

inductive Understood where
  | field (name : String)
  | call (arguments : List Expression)
  | index (key : String)

def binaryMethod? : String → Option Binary
  | "contains" => some .contains
  | "containsAll" => some .containsAll
  | "containsAny" => some .containsAny
  | "getTag" => some .getTag
  | "hasTag" => some .hasTag
  | _ => none

def callFunction (path : Path) (arguments : List Expression) : Checked Expression :=
  match path.spaces, Function.called? path.base with
  | [], some function => .ok (.call function arguments)
  | _, _ => Checked.fault

def callMethod (target : Expression) (name : String) (arguments : List Expression) :
    Checked Expression :=
  match binaryMethod? name, arguments with
  | some operator, [argument] => .ok (.binary operator target argument)
  | some _, _ => Checked.fault
  | none, arguments =>
      if name = "isEmpty" then
        if arguments.isEmpty then .ok (.unary .isEmpty target) else Checked.fault
      else match Function.method? name with
        | some function => .ok (.call function (target :: arguments))
        | none => Checked.fault

/-- Applies fields, calls and indices one after the other; a call takes the field before it along.
-/
def applyAccesses : (fuel : Nat) → Operand → List Understood → Checked Operand
  | _, head, [] => .ok head
  | 0, _, _ => Checked.fault
  | fuel + 1, head, access :: rest =>
      match access, rest with
      | .call arguments, rest =>
          match head with
          | .name path => do applyAccesses fuel (.expression (← callFunction path arguments)) rest
          | _ => Checked.fault
      | .field name, .call arguments :: rest =>
          match head with
          | .name _ => Checked.fault
          | head => do
              let target ← head.toExpression
              applyAccesses fuel (.expression (← callMethod target name arguments)) rest
      | .field name, rest =>
          match head with
          | .name _ => Checked.fault
          | head => do applyAccesses fuel (.expression (.attribute (← head.toExpression) name)) rest
      | .index key, rest =>
          match head with
          | .name _ => Checked.fault
          | head => do applyAccesses fuel (.expression (.attribute (← head.toExpression) key)) rest

def relate (relator : Relator) (left right : Expression) : Checked Expression :=
  match relator with
  | .less => .ok (.binary .less left right)
  | .lessEqual => .ok (.binary .lessEqual left right)
  | .greaterEqual => .ok (.unary .not (.binary .less left right))
  | .greater => .ok (.unary .not (.binary .lessEqual left right))
  | .notEqual => .ok (.unary .not (.binary .equal left right))
  | .equal => .ok (.binary .equal left right)
  | .within => .ok (.binary .within left right)
  | .assigned => Checked.fault

def fieldsAfter (first : String) : List Access → Checked (String × List String)
  | accesses => do
      let rest ← accesses.mapM fun access =>
        match access with
        | .field name => fieldName name
        | _ => Checked.fault
      return (first, rest)

def hasFields (target : Phrase) (accesses : List Access) : Checked (String × List String) :=
  match target with
  | .literal (.text raw) =>
      if accesses.isEmpty then (Text.unescape raw).map fun name => (name, []) else Checked.fault
  | .name path => do
      match path.spaces, Operand.variableNamed? path.base with
      | [], some _ => fieldsAfter path.base accesses
      | [], none =>
          let name ← path.checked
          fieldsAfter name accesses
      | _, _ =>
          let _ ← path.checked
          Checked.fault
  | _ => Checked.fault

def fieldsOfHas : Phrase → Checked (String × List String)
  | .member target accesses => hasFields target accesses
  | phrase => hasFields phrase []

def negateTimes (expression : Expression) : (count : Nat) → Expression
  | 0 => expression
  | count + 1 => .unary .negate (negateTimes expression count)

def denyTimes (expression : Expression) : (count : Nat) → Expression
  | 0 => expression
  | count + 1 => .unary .not (denyTimes expression count)

def distinctNames (members : List (String × Expression)) : Bool :=
  (members.map (·.1)).eraseDups.length = members.length

mutual
def Phrase.operand : Phrase → Checked Operand
  | .choice condition consequence alternative => do
      let ((condition, consequence), alternative) ←
        Checked.both (Checked.both condition.expression consequence.expression)
          alternative.expression
      return .expression (.choice condition consequence alternative)
  | .either first rest => do
      let (first, rest) ← Checked.both first.operand (Phrase.expressions rest)
      return .expression (rest.foldl .or (← first.toExpression))
  | .both first rest => do
      let (first, rest) ← Checked.both first.operand (Phrase.expressions rest)
      return .expression (rest.foldl .and (← first.toExpression))
  | .relation first rest => do
      let ((first, rest), _) ← Checked.both (Checked.both first.operand (Phrase.related rest))
        (Checked.require (if rest.length > 1 then 1 else 0))
      match rest with
      | [] => return first
      | (relator, second) :: _ =>
          return .expression (← relate relator (← first.toExpression) second)
  | .has target field => do
      let fields ← fieldsOfHas field
      let target ← target.expression
      return .expression (.has target fields.1 fields.2)
  | .like target pattern => do
      let pattern ← pattern.operand
      let (target, pattern) ← Checked.both target.expression pattern.toPattern
      return .expression (.like target pattern)
  | .is target entityType container => do
      let kind ← entityType.operand
      let (target, kind) ← Checked.both target.expression kind.toKind
      match container with
      | none => return .expression (.is target kind)
      | some container => return .expression (.isWithin target kind (← container.expression))
  | .sum first rest => do
      let (first, rest) ← Checked.both first.operand (Phrase.added rest)
      let first ← first.toExpression
      return .expression <| rest.foldl (fun left (adding, right) =>
        .binary (match adding with | .plus => .plus | .minus => .minus) left right) first
  | .product first rest => do
      let (first, rest) ← Checked.both first.operand (Phrase.scaled rest)
      return .expression (rest.foldl (.binary .times) (← first.toExpression))
  | .signed signs operand =>
      match signs with
      | .none => operand.operand
      | .bangs count => do
          if count > 4 then Checked.fault
          else return .expression (denyTimes (← operand.expression) count)
      | .dashes count =>
          if count > 4 then Checked.fault
          else match operand with
            | .literal (.number value) =>
                if value > Number.signedLimit then Checked.fault
                else .ok (.expression (negateTimes (.constant (.long (-value))) (count - 1)))
            | operand => do return .expression (negateTimes (← operand.expression) count)
  | .member target accesses => do
      let (head, accesses) ← Checked.both target.operand (Phrase.understood accesses)
      applyAccesses accesses.length head accesses
  | .literal (.boolean value) => .ok (.boolean value)
  | .literal (.number value) =>
      if value < Number.signedLimit then .ok (.expression (.constant (.long value)))
      else Checked.fault
  | .literal (.text raw) => .ok (.text raw)
  | .name path =>
      match path.spaces, Operand.variableNamed? path.base with
      | [], some which => .ok (.variable which)
      | _, _ => path.checked.map fun _ => .name path
  | .entity path raw => do
      let (kind, id) ← Checked.both path.checked (Text.unescape raw)
      return .expression (.constant (.entity ⟨kind, id⟩))
  | .entityRecord _ => Checked.fault
  | .slot "principal" => .ok (.expression (.slot .principal))
  | .slot "resource" => .ok (.expression (.slot .resource))
  | .slot _ => Checked.fault
  | .group inner => do return .expression (← inner.expression)
  | .list elements => do return .expression (.set (← Phrase.expressions elements))
  | .record members => do
      let members ← Phrase.memberExpressions members
      if distinctNames members then return .expression (.record members) else Checked.fault
  | .unreadable => Checked.fault

def Phrase.expression (phrase : Phrase) : Checked Expression := do
  (← phrase.operand).toExpression

def Phrase.expressions : List Phrase → Checked (List Expression)
  | [] => .ok []
  | phrase :: rest =>
      (Checked.both phrase.expression (Phrase.expressions rest)).map fun (first, rest) =>
        first :: rest

def Phrase.related : List (Relator × Phrase) → Checked (List (Relator × Expression))
  | [] => .ok []
  | (relator, phrase) :: rest =>
      (Checked.both phrase.expression (Phrase.related rest)).map fun (first, rest) =>
        (relator, first) :: rest

def Phrase.added : List (Adding × Phrase) → Checked (List (Adding × Expression))
  | [] => .ok []
  | (adding, phrase) :: rest =>
      (Checked.both phrase.expression (Phrase.added rest)).map fun (first, rest) =>
        (adding, first) :: rest

def Phrase.scaled : List (Scaling × Phrase) → Checked (List Expression)
  | [] => .ok []
  | (scaling, phrase) :: rest =>
      let factor := do
        let value ← phrase.expression
        if scaling = .times then return value else Checked.fault
      (Checked.both factor (Phrase.scaled rest)).map fun (first, rest) => first :: rest

def Phrase.understood : List Access → Checked (List Understood)
  | [] => .ok []
  | access :: rest =>
      let understood : Checked Understood := match access with
        | .field which => (fieldName which).map .field
        | .call arguments => (Phrase.expressions arguments).map .call
        | .index key => do return .index (← (← key.operand).toIndex)
      (Checked.both understood (Phrase.understood rest)).map fun (first, rest) => first :: rest

def Phrase.memberExpressions : List (Phrase × Phrase) → Checked (List (String × Expression))
  | [] => .ok []
  | (key, value) :: rest =>
      let member := do
        let key ← key.operand
        Checked.both key.toMemberName value.expression
      (Checked.both member (Phrase.memberExpressions rest)).map fun (first, rest) => first :: rest
end

end PolicyWarden.Cedar
