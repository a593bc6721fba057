import PolicyWarden.Cedar.Compiler
import PolicyWarden.Dispatch.Intake
import PolicyWarden.Resource.Policy

/-!
What surrounds the controller in a simulation: a source that answers fetches in its own time, and a
stream of events.
-/

namespace PolicyWarden

def PolicyResource.rules (compiler : Cedar.Compiler) (onRefusal : RefusalPolicy) :
    Rules PolicyResource Cedar.CompiledPolicy where
  revision resource := resource.metadata.revision
  compile identity resource :=
    let specification := resource.specification
    match compiler.compile identity specification.policies specification.enabled with
    | .ok policy => .accepted policy
    | .error errors => .refused errors
  onRefusal := onRefusal

namespace Scenario

inductive Pace where
  | atOnce
  | after (milliseconds : Nat)
  /-- Without delay, but only once all else has come to rest. -/
  | roundTrip
deriving DecidableEq, Repr

/-- Surroundings whose state is a `σ`; a `δ` is a change that a script may make to them. -/
structure Surroundings (σ δ : Type) where
  change : σ → δ → σ
  ask : σ → Identity → σ × Pace
  answer : σ → Identity → σ × Answer PolicyResource
  /-- Asks the stream for events at a time and with the identities stored then; none if it has to be
  waited for. -/
  pull : σ → (now : Nat) → (stored : List Identity) → Option (σ × List Identity)
  settle : σ → Option σ := fun _ => none
  wakeAt : σ → Option Nat := fun _ => none

end Scenario

end PolicyWarden
