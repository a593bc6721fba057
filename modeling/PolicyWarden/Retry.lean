import PolicyWarden.Delay

/-!
Retrying an operation with exponential backoff. `Retry` follows one operation from call to call: the
caller says how a call went, that a wait is over, or that it was cancelled. An error ends the
retrying if it is not worth another attempt or if the attempts have run out.
-/

namespace PolicyWarden

structure Backoff where
  /-- No limit if zero. -/
  maxAttempts : UInt32 := 0
  initial : Delay := .ofMilliseconds 100
  ceiling : Delay := .ofMilliseconds 30000
  multiplier : Float := 2.0

/-- The number of the current attempt and the delay after it, before jitter. -/
structure Attempt where
  number : UInt32
  delay : Delay
deriving DecidableEq, Repr

namespace Backoff

def first (backoff : Backoff) : Attempt :=
  ⟨1, backoff.initial⟩

def exhausted (backoff : Backoff) (attempt : Attempt) : Bool :=
  0 < backoff.maxAttempts && backoff.maxAttempts ≤ attempt.number

/-- The lesser of two numbers; what is no number yields to the other. -/
def lesser (left right : Float) : Float :=
  if left.isNaN then right else if right.isNaN then left else if left ≤ right then left else right

/-- The attempt after this one; its delay has grown, up to the ceiling. Numbers wrap around after
2^32 - 1 as they do in a release build, which only retrying without a limit can come to; a build with
overflow checks panics there instead. -/
def next (backoff : Backoff) (attempt : Attempt) : Except DelayError Attempt :=
  let grown := attempt.delay.seconds * backoff.multiplier
  match Delay.ofSeconds (lesser grown backoff.ceiling.seconds) with
  | .ok delay => .ok ⟨attempt.number + 1, delay⟩
  | .error error => .error error

def wait (attempt : Attempt) (jitter : Float) : Except DelayError Delay :=
  Delay.ofSeconds (attempt.delay.seconds * jitter)

end Backoff

inductive Retry (ε τ : Type) where
  | calling (attempt : Attempt)
  | waiting (attempt : Attempt) (error : ε) (wait : Delay)
  | ended (result : Except ε τ)
  | unwound (error : DelayError)

namespace Retry

variable {ε τ : Type}

def start (backoff : Backoff) : Retry ε τ :=
  .calling backoff.first

def returned (backoff : Backoff) (retryable : ε → Bool) (jitter : Float) (attempt : Attempt) :
    Except ε τ → Retry ε τ
  | .ok value => .ended (.ok value)
  | .error error =>
      if !retryable error || backoff.exhausted attempt then .ended (.error error)
      else
        match Backoff.wait attempt jitter with
        | .ok wait => .waiting attempt error wait
        | .error failure => .unwound failure

/-- The wait is over; the delay after the next attempt is computed only now. -/
def elapsed (backoff : Backoff) : Retry ε τ → Retry ε τ
  | .waiting attempt _ _ =>
      match backoff.next attempt with
      | .ok next => .calling next
      | .error failure => .unwound failure
  | other => other

def cancelled : Retry ε τ → Retry ε τ
  | .waiting _ error _ => .ended (.error error)
  | other => other

end Retry

end PolicyWarden
