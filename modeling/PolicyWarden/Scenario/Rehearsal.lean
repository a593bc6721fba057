import PolicyWarden.Retry

/-!
Retrying a scripted operation in simulated time. A call takes no time; a wait takes its delay,
without jitter and rounded up to whole milliseconds.
-/

namespace PolicyWarden.Scenario

structure ScriptedCall (τ : Type) where
  result : Except String τ
  retryable : Bool

/-- A scripted operation and the moments at which its context is cancelled. The last call repeats.
-/
structure Rehearsal (τ : Type) where
  backoff : Backoff
  script : List (ScriptedCall τ)
  /-- Cancelled before the first call if zero, else during the call of this number. -/
  cancelledAtCall : Option Nat := none
  cancelledAtTime : Option Nat := none

structure Rehearsed (τ : Type) where
  result : Except (ScriptedCall τ) τ
  calls : List Nat

namespace Rehearsal

variable {τ : Type}

def callAt? (rehearsal : Rehearsal τ) (number : Nat) : Option (ScriptedCall τ) :=
  rehearsal.script[number]? <|> rehearsal.script.getLast?

def cancelledBy (rehearsal : Rehearsal τ) (calls now : Nat) : Bool :=
  rehearsal.cancelledAtCall.any (· ≤ calls) || rehearsal.cancelledAtTime.any (· ≤ now)

/-- Goes on from a state of the retrying; `made` holds the times of the calls so far, last first. -/
def follow (rehearsal : Rehearsal τ) : (fuel : Nat) → (made : List Nat) → (now : Nat) →
    Retry (ScriptedCall τ) τ → Except DelayError (Option (Rehearsed τ))
  | 0, _, _, _ => .ok none
  | fuel + 1, made, now, state =>
      match state with
      | .calling attempt =>
          match rehearsal.callAt? made.length with
          | none => .ok none
          | some call =>
              let result := match call.result with
                | .ok value => .ok value
                | .error _ => .error call
              rehearsal.follow fuel (now :: made) now
                (Retry.returned rehearsal.backoff (·.retryable) 1.0 attempt result)
      | .waiting _ _ wait =>
          let due := now + wait.timerMilliseconds
          if rehearsal.cancelledBy made.length due then
            rehearsal.follow fuel made now state.cancelled
          else rehearsal.follow fuel made due (state.elapsed rehearsal.backoff)
      | .ended result => .ok (some ⟨result, made.reverse⟩)
      | .unwound error => .error error

/-- Enough steps for every rehearsal that ends: without a limit on the attempts it ends by the
script or by the cancellation. -/
def fuel (rehearsal : Rehearsal τ) : Nat :=
  let calls := rehearsal.script.length + rehearsal.backoff.maxAttempts.toNat
    + rehearsal.cancelledAtCall.getD 0 + rehearsal.cancelledAtTime.getD 0
  2 * calls + 4

def run (rehearsal : Rehearsal τ) : Except DelayError (Option (Rehearsed τ)) :=
  rehearsal.follow rehearsal.fuel [] 0 (Retry.start rehearsal.backoff)

end Rehearsal

end PolicyWarden.Scenario
