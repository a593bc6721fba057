import PolicyWarden.Scenario.World

/-!
Simulations with a source that is kept in memory: it can be made to fail and to be slow, and events
are sent along with the changes.
-/

namespace PolicyWarden.Scenario

structure PlannedFailure where
  /-- How many fetches are still to fail; no end to it if there is no number. -/
  left : Option Nat
  message : String
deriving DecidableEq, Repr

structure HeldSource where
  resources : Table Identity PolicyResource := Table.empty
  failures : Table Identity PlannedFailure := Table.empty
  latencies : Table Identity Nat := Table.empty
  latency : Nat := 0
  events : List Identity := []

inductive HeldChange where
  | put (identity : Identity) (resource : PolicyResource)
  | delete (identity : Identity)
  | fail (identity : Identity) (failure : PlannedFailure)
  /-- For all identities without a latency of their own if none is named. -/
  | latency (identity : Option Identity) (milliseconds : Nat)
  | event (identity : Identity)
  /-- The stream ends, which makes no difference to what was sent. -/
  | close
deriving Inhabited

namespace HeldSource

def resource (policies : String) (enabled : Bool) (revision : Option String) : PolicyResource where
  metadata := { revision }
  specification := { policies, enabled }

def change (source : HeldSource) : HeldChange → HeldSource
  | .put identity resource => { source with resources := source.resources.insert identity resource }
  | .delete identity => { source with resources := source.resources.erase identity }
  | .fail identity failure => { source with failures := source.failures.insert identity failure }
  | .latency (some identity) milliseconds =>
      { source with latencies := source.latencies.insert identity milliseconds }
  | .latency none milliseconds => { source with latency := milliseconds }
  | .event identity => { source with events := source.events ++ [identity] }
  | .close => source

def pace (source : HeldSource) (identity : Identity) : Pace :=
  match (source.latencies.find? identity).getD source.latency with
  | 0 => .atOnce
  | milliseconds => .after milliseconds

/-- A failure that is left comes before what the source holds. -/
def answer (source : HeldSource) (identity : Identity) : HeldSource × Answer PolicyResource :=
  match source.failures.find? identity with
  | some ⟨none, message⟩ => (source, .error ⟨identity, message⟩)
  | some ⟨some (left + 1), message⟩ =>
      ({ source with failures := source.failures.insert identity ⟨some left, message⟩ },
        .error ⟨identity, message⟩)
  | _ => (source, .ok (source.resources.find? identity))

def surroundings : Surroundings HeldSource HeldChange where
  change := change
  ask source identity := (source, source.pace identity)
  answer := answer
  pull source _ _ :=
    match source.events with
    | [] => none
    | first :: rest => some ({ source with events := rest }, [first])

end HeldSource

abbrev HeldStep := Step HeldChange

structure HeldSession where
  config : DispatchConfig
  compiler : Cedar.Compiler
  onRefusal : RefusalPolicy

structure IntakeReport where
  timeline : List Report
  state : StateReport
  peak : Nat
  endedEarly : Bool
  sound : Bool

namespace HeldSession

def limit : Nat := 100000000

def world (session : HeldSession) (source : HeldSource) (steps : List HeldStep) :
    World HeldSource HeldChange where
  surroundings := HeldSource.surroundings
  source := source
  config := session.config
  rules := PolicyResource.rules session.compiler session.onRefusal
  scripts := [{ path := [], steps }]

/-- Makes the steps one after the other; none if they do not come to an end, and the message of the
failure if a call fails without a result. -/
def run (session : HeldSession) (steps : List HeldStep) : Except String (Option (List Report)) :=
  let ended := (session.world {} steps).run limit
  match ended.unwound with
  | some message => .error message
  | none => .ok ended.finished

/-- Lets an intake work on events, while steps are made at their times; at the time `last` it is
cancelled. The steps of `setup` come before. -/
def process (session : HeldSession) (setup : List HeldStep) (events : List Identity)
    (timeline : List (Nat × HeldStep)) (last : Nat) : Except String (Option IntakeReport) :=
  let timed := timeline.flatMap fun (time, step) => [.waitUntil time, step]
  let script := setup ++ .start :: timed ++
    [.waitUntil last, .isDone, .stop, .waitForEnd, .state]
  let ended := (session.world { events } script).run limit
  match ended.unwound, ended.processing, ended.finished with
  | some message, _, _ => .error message
  | none, .done sound, some reports =>
      let reports := reports.drop setup.length
      match reports.drop timeline.length with
      | [.flag endedEarly, _, .state state] =>
          .ok (some {
            timeline := reports.take timeline.length
            state, peak := ended.peak, endedEarly, sound })
      | _ => .ok none
  | _, _, _ => .ok none

end HeldSession

end PolicyWarden.Scenario
