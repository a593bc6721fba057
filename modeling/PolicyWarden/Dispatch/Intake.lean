import PolicyWarden.Dispatch.Call

/-!
The way of events to their dispatch. Events come from a stream or, after a rest, from dispatches
whose attempts ran out; both kinds wait in line, and the two lines take turns while there is a free
slot. A resting identity holds no slot. After the cancellation nothing is taken any more, and the
intake is done once its last dispatch is over.
-/

namespace PolicyWarden

structure Slot where
  ticket : Nat
  identity : Identity
deriving DecidableEq, Repr

/-- An identity that rests until its time, in milliseconds. -/
structure Rest where
  due : Nat
  identity : Identity
deriving DecidableEq, Repr

structure Intake where
  /-- How many dispatches may be in progress at once; no limit if zero. -/
  limit : Nat
  arrived : List Identity := []
  rested : List Identity := []
  resting : List Rest := []
  restedFirst : Bool := false
  slots : List Slot := []
  stopped : Bool := false
deriving Repr

namespace Intake

def hasRoom (intake : Intake) : Bool :=
  intake.limit = 0 || intake.slots.length < intake.limit

def accepts (intake : Intake) : Bool :=
  !intake.stopped && intake.hasRoom

/-- The next identity, from the line that has the turn or, if that is empty, from the other one. -/
def next? (intake : Intake) : Option (Identity × Intake) :=
  if !intake.accepts then none
  else
    let turned := { intake with restedFirst := !intake.restedFirst }
    match intake.restedFirst, intake.arrived, intake.rested with
    | false, first :: rest, _ => some (first, { turned with arrived := rest })
    | true, _, first :: rest => some (first, { turned with rested := rest })
    | _, first :: rest, [] => some (first, { turned with arrived := rest })
    | _, [], first :: rest => some (first, { turned with rested := rest })
    | _, [], [] => none

def start (intake : Intake) (ticket : Nat) (identity : Identity) : Intake :=
  { intake with slots := intake.slots ++ [⟨ticket, identity⟩] }

def deservesRest : Except ReconcileError Outcome → Bool
  | .error error => error.retryable
  | .ok _ => false

/-- Frees the slot of a dispatch. An identity whose attempts ran out rests until `due`, unless all
work was cancelled. -/
def finish (intake : Intake) (slot : Slot) (result : Option (Except ReconcileError Outcome))
    (cancelled : Bool) (due : Nat) : Intake :=
  let freed := { intake with slots := intake.slots.erase slot }
  if result.any deservesRest && !cancelled then
    { freed with resting := intake.resting ++ [⟨due, slot.identity⟩] }
  else freed

def wake (intake : Intake) (now : Nat) : Intake :=
  let (ended, still) := intake.resting.partition fun rest => rest.due ≤ now
  { intake with resting := still, rested := intake.rested ++ ended.map Rest.identity }

def stop (intake : Intake) : Intake :=
  { intake with stopped := true, resting := [] }

def isDone (intake : Intake) : Bool :=
  intake.stopped && intake.slots.isEmpty

end Intake

end PolicyWarden
