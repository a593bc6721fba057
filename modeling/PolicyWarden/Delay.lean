import PolicyWarden.Number.Shortest
import PolicyWarden.Number.Width

/-!
Spans of time in whole nanoseconds, and their conversion to and from seconds as binary
floating-point numbers.
-/

namespace PolicyWarden

structure Delay where
  nanoseconds : Nat
deriving DecidableEq, Repr, Inhabited

inductive DelayError where
  | negative
  | unbounded
deriving DecidableEq, Repr

def DelayError.text : DelayError → String
  | .negative => "cannot convert float seconds to Duration: value is negative"
  | .unbounded => "cannot convert float seconds to Duration: value is either too big or NaN"

namespace Delay

def ofMilliseconds (milliseconds : Nat) : Delay :=
  ⟨milliseconds * 1000000⟩

def wholeMilliseconds (delay : Delay) : Nat :=
  delay.nanoseconds / 1000000

/-- The milliseconds after which a timer for this span fires: never too early. -/
def timerMilliseconds (delay : Delay) : Nat :=
  (delay.nanoseconds + 999999) / 1000000

/-- Seconds and their fraction, each rounded on its own and then added. -/
def seconds (delay : Delay) : Float :=
  Float.ofNat (delay.nanoseconds / 1000000000) + Float.ofNat (delay.nanoseconds % 1000000000) / 1e9

/-- The quotient rounded to the nearest whole number, a half going to the even neighbour. -/
def roundQuotient (numerator denominator : Nat) : Nat :=
  let quotient := numerator / denominator
  let doubled := 2 * (numerator % denominator)
  if doubled > denominator || (doubled = denominator && quotient % 2 = 1) then quotient + 1
  else quotient

/-- The span of so many seconds to the nearest nanosecond. A negative zero counts as zero. -/
def ofSeconds (seconds : Float) : Except DelayError Delay :=
  match Number.Binary64.ofBits seconds.toBits with
  | .finite value =>
      if value.negative && value.mantissa ≠ 0 then .error .negative
      else
        let ratio := value.ratio
        if ratio.numerator / ratio.denominator ≥ Number.wordCount then .error .unbounded
        else .ok ⟨roundQuotient (ratio.numerator * 1000000000) ratio.denominator⟩
  | .infinite negative => if negative then .error .negative else .error .unbounded
  | .undefined => .error .unbounded

end Delay

end PolicyWarden
