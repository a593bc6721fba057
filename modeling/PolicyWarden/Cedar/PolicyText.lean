import PolicyWarden.Cedar.Meaning

/-!
Policies from a text: the heads and clauses of policies as written get their meaning here.
-/

namespace PolicyWarden.Cedar

/-- A single entity, or a place left open where `slot` names one that is allowed. -/
def Phrase.target (slot : Option String) : Phrase → Checked Target
  | .slot which => if slot = some which then .ok .slot else Checked.fault
  | .entity path raw =>
      (Checked.both path.checked (Text.unescape raw)).map fun (kind, id) => .entity ⟨kind, id⟩
  | .name path => do
      let _ ← path.checked
      Checked.fault
  | .group inner => inner.target slot
  | .list elements => do
      let _ ← Checked.all (elements.map fun element => element.expression)
      Checked.fault
  | _ => Checked.fault

def Phrase.singleEntity (phrase : Phrase) : Checked EntityUid := do
  match ← phrase.target none with
  | .entity uid => return uid
  | .slot => Checked.fault

def Phrase.entities : Phrase → Checked (List EntityUid)
  | .group inner => inner.entities
  | .list elements => Checked.all (elements.map Phrase.singleEntity)
  | phrase => do return [← phrase.singleEntity]

def EntityUid.isAction (uid : EntityUid) : Bool :=
  (uid.kind.splitOn "::").getLast? = some "Action"

namespace HeadVariable

def kind (phrase : Phrase) : Checked String := do
  (← phrase.operand).toKind

def refuseColon (head : HeadVariable) : Checked Unit := do
  match head.colonType with
  | some path =>
      let _ ← path.checked
      Checked.fault
  | none => return ()

def constraint (expected : String) (head : HeadVariable) : Checked Constraint := do
  if !(["principal", "action", "resource"].contains head.name) then Checked.fault
  head.refuseColon
  let constraint ← match head.relation, head.isType with
    | none, none => pure Constraint.any
    | none, some phrase => do pure (.is (← kind phrase))
    | some (relator, phrase), isType => do
        let target ← phrase.target (some expected)
        match relator, isType with
        | .equal, none => pure (.equal target)
        | .within, none => pure (.within target)
        | .within, some phrase => do pure (.isWithin (← kind phrase) target)
        | _, _ => Checked.fault
  if head.name = expected then return constraint else Checked.fault

def actionConstraint (head : HeadVariable) : Checked ActionConstraint := do
  if head.name ≠ "action" then Checked.fault
  head.refuseColon
  if head.isType.isSome then Checked.fault
  let constraint ← match head.relation with
    | none => pure ActionConstraint.any
    | some (.within, phrase) => do pure (.within (← phrase.entities))
    | some (.equal, phrase) => do pure (.equal (← phrase.singleEntity))
    | some _ => Checked.fault
  let named := match constraint with
    | .any => []
    | .equal uid => [uid]
    | .within uids => uids
  if named.all EntityUid.isAction then return constraint else Checked.fault

end HeadVariable

/-- The condition of a clause; places left open have no business there. -/
def Clause.condition (clause : Clause) : Checked Expression := do
  let negated ← match clause.word with
    | "when" => pure false
    | "unless" => pure true
    | _ => Checked.fault
  match clause.body with
  | none => Checked.fault
  | some body =>
      let expression ← body.expression
      Checked.require expression.slots
      return if negated then .unary .not expression else expression

namespace PolicyPhrase

/-- The faults of the labels; otherwise they have no effect. -/
def labelFaults (phrase : PolicyPhrase) : Nat :=
  let faults (label : Label) : Nat :=
    match label.raw.map Text.unescape with
    | some (.error faults) => faults
    | _ => 0
  let sound := phrase.labels.filter (faults · = 0)
  let repeated := sound.length - (sound.map Label.name).eraseDups.length
  Checked.total (phrase.labels.map faults) + repeated

def effectMeant (phrase : PolicyPhrase) : Checked Effect :=
  match phrase.effect with
  | "permit" => .ok .permit
  | "forbid" => .ok .forbid
  | _ => Checked.fault

/-- The meaning of one part of the head, which is missing if the head is too short. -/
def headPart {α : Type} (phrase : PolicyPhrase) (position : Nat)
    (meaning : HeadVariable → Checked α) : Checked α :=
  match phrase.heads[position]? with
  | some head => meaning head
  | none => Checked.fault

def meaning (phrase : PolicyPhrase) : Checked Policy :=
  let head := Checked.both
    (Checked.both (phrase.headPart 0 (·.constraint "principal"))
      (phrase.headPart 1 HeadVariable.actionConstraint))
    (Checked.both (phrase.headPart 2 (·.constraint "resource"))
      (Checked.require (phrase.heads.length - 3)))
  let body := Checked.both
    (Checked.both phrase.effectMeant (Checked.require phrase.labelFaults))
    (Checked.all (phrase.clauses.map Clause.condition))
  (Checked.both head body).map fun (((principal, action), resource, _), (effect, _), conditions) =>
    { effect, principal, action, resource, conditions }

end PolicyPhrase

/-- The policies of a text in order, or the number of errors in it. Errors of the form come first: a
text with any is not looked at further. -/
def Policy.parseAll (source : String) : Except Nat (List Policy) := do
  let phrases ← PolicyPhrase.parseAll source
  Checked.all (phrases.map PolicyPhrase.meaning)

end PolicyWarden.Cedar
