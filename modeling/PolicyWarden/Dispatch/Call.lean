import PolicyWarden.Reconcile
import PolicyWarden.Retry

/-!
Dispatching one identity: a call runs reconciles of its identity, with retries, until one has come
to its end with no event arriving meanwhile. Identities with a call in its loop are in flight; a
call that finds its identity in flight marks it there and leaves the work to the other call.
`Phase.move` takes a call through its atomic steps, so that calls may be interleaved at will.

A reconcile at whose compile the runtime ends returns as cancelled, without a verdict: that is a step
of an `Undertaking` and of a `Job`. Calls have no such move. The end of the runtime drops them where
they wait, together with all that they share, so what is said of calls is said of a runtime that goes
on.
-/

namespace PolicyWarden

structure DispatchConfig where
  /-- No limit if zero. -/
  maxConcurrent : Nat := 16
  backoff : Backoff := { maxAttempts := 5 }
  requeueDelay : Delay := .ofMilliseconds 30000

structure Dispatcher (ρ : Type) where
  cache : Cache ρ := {}
  /-- The identities in flight, marked if another event came meanwhile. -/
  inFlight : Table Identity Bool := Table.empty

instance {ρ : Type} : Inhabited (Dispatcher ρ) := ⟨{}⟩

inductive Phase (α ρ : Type) where
  | arriving
  /-- Another call has the identity in flight and will run once more. -/
  | merged
  | attempting (attempt : Attempt) (reconcile : Reconcile α ρ)
  | backingOff (attempt : Attempt) (error : ReconcileError) (wait : Delay)
  | concluding (result : Except ReconcileError Outcome)
  | rearming
  | returned (result : Except ReconcileError Outcome)
  /-- The call failed without a result; what it had in flight stays there. -/
  | unwound (message : String)

inductive Move (α : Type) where
  | proceed
  | answered (answer : Answer α)
  | compiled
  | waited
  | noticed

namespace Phase

variable {α ρ : Type}

def ofRetry : Retry ReconcileError Outcome → Phase α ρ
  | .calling attempt => .attempting attempt .starting
  | .waiting attempt error wait => .backingOff attempt error wait
  | .ended result => .concluding result
  | .unwound error => .unwound error.text

def run (backoff : Backoff) : Phase α ρ :=
  ofRetry (Retry.start backoff)

def arrive (backoff : Backoff) (identity : Identity) (dispatcher : Dispatcher ρ) :
    Dispatcher ρ × Phase α ρ :=
  if dispatcher.inFlight.contains identity then
    ({ dispatcher with inFlight := dispatcher.inFlight.insert identity true }, .merged)
  else
    ({ dispatcher with inFlight := dispatcher.inFlight.insert identity false }, run backoff)

/-- Leaves with a result, unless the identity was marked. A cancelled call leaves in any case. -/
def conclude (identity : Identity) (cancelled : Bool) (dispatcher : Dispatcher ρ)
    (result : Except ReconcileError Outcome) : Dispatcher ρ × Phase α ρ :=
  if cancelled || dispatcher.inFlight.find? identity == some false then
    ({ dispatcher with inFlight := dispatcher.inFlight.erase identity }, .returned result)
  else (dispatcher, .rearming)

/-- Takes the mark away, before the source is asked again. -/
def rearm (backoff : Backoff) (identity : Identity) (dispatcher : Dispatcher ρ) :
    Dispatcher ρ × Phase α ρ :=
  let inFlight :=
    if dispatcher.inFlight.contains identity then dispatcher.inFlight.insert identity false
    else dispatcher.inFlight
  ({ dispatcher with inFlight }, run backoff)

/-- The step of a reconcile that needs nothing from outside, within its call. -/
def advance (rules : Rules α ρ) (backoff : Backoff) (jitter : Float) (identity : Identity)
    (cancelled : Bool) (dispatcher : Dispatcher ρ) (attempt : Attempt) :
    Reconcile α ρ → Option (Dispatcher ρ × Phase α ρ)
  | .ended result =>
      some (dispatcher,
        ofRetry (Retry.returned backoff ReconcileError.retryable jitter attempt result))
  | .unwound message => some (dispatcher, .unwound message)
  | reconcile =>
      (reconcile.advance rules identity cancelled dispatcher.cache).map fun (cache, next) =>
        ({ dispatcher with cache }, .attempting attempt next)

def move (rules : Rules α ρ) (backoff : Backoff) (jitter : Float) (identity : Identity)
    (cancelled : Bool) (dispatcher : Dispatcher ρ) :
    Phase α ρ → Move α → Option (Dispatcher ρ × Phase α ρ)
  | .arriving, .proceed => some (arrive backoff identity dispatcher)
  | .attempting attempt reconcile, .proceed =>
      advance rules backoff jitter identity cancelled dispatcher attempt reconcile
  | .attempting attempt .fetching, .answered answer =>
      some (dispatcher, .attempting attempt (.answered answer))
  | .attempting attempt (.compiling resource), .compiled =>
      some (dispatcher,
        .attempting attempt ((Reconcile.compiling resource).compile rules identity))
  | .attempting attempt .fetching, .noticed =>
      if cancelled then some (dispatcher, .attempting attempt (Reconcile.fetching.abandon identity))
      else none
  | .backingOff attempt error wait, .waited =>
      some (dispatcher, ofRetry (Retry.elapsed backoff (.waiting attempt error wait)))
  | .backingOff attempt error wait, .noticed =>
      if cancelled then
        some (dispatcher, ofRetry (Retry.cancelled (.waiting attempt error wait)))
      else none
  | .concluding result, .proceed => some (conclude identity cancelled dispatcher result)
  | .rearming, .proceed => some (rearm backoff identity dispatcher)
  | _, _ => none

def isOver : Phase α ρ → Bool
  | .merged => true
  | .returned _ => true
  | .unwound _ => true
  | _ => false

end Phase

end PolicyWarden
