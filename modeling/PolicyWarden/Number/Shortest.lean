/-!
Binary floating-point numbers of 64 bits in decimal: the fewest digits that read back as the number,
and of those the nearest. All comparisons are made in whole numbers.
-/

namespace PolicyWarden.Number

/-- A finite number: `mantissa * 2 ^ exponent`, negated if `negative`. -/
structure Finite where
  negative : Bool
  mantissa : Nat
  exponent : Int
deriving DecidableEq, Repr

inductive Binary64 where
  | finite (value : Finite)
  | infinite (negative : Bool)
  | undefined
deriving DecidableEq, Repr

def Binary64.ofBits (bits : UInt64) : Binary64 :=
  let word := bits.toNat
  let negative : Bool := word / Nat.pow 2 63 = 1
  let scale : Nat := word / Nat.pow 2 52 % Nat.pow 2 11
  let fraction := word % Nat.pow 2 52
  if scale = 2047 then
    if fraction = 0 then .infinite negative else .undefined
  else if scale = 0 then .finite ⟨negative, fraction, -1074⟩
  else .finite ⟨negative, Nat.pow 2 52 + fraction, (scale : Int) - 1075⟩

structure Decimal where
  digits : Nat
  exponent : Int
deriving DecidableEq, Repr

structure Ratio where
  numerator : Nat
  denominator : Nat

def Ratio.scaled (mantissa base : Nat) (exponent : Int) : Ratio :=
  if exponent < 0 then ⟨mantissa, Nat.pow base exponent.natAbs⟩
  else ⟨mantissa * Nat.pow base exponent.natAbs, 1⟩

def Ratio.less (left right : Ratio) : Bool :=
  left.numerator * right.denominator < right.numerator * left.denominator

def Ratio.distance (left right : Ratio) : Ratio :=
  let crossed := left.numerator * right.denominator
  let other := right.numerator * left.denominator
  ⟨(crossed - other) + (other - crossed), left.denominator * right.denominator⟩

/-- The least `e` with `value < 10 ^ e`, searched upward from `low`. -/
def Ratio.magnitude (value : Ratio) : (tries : Nat) → (low : Int) → Int
  | 0, low => low
  | tries + 1, low =>
      if value.less (.scaled 1 10 low) then low else value.magnitude tries (low + 1)

namespace Finite

def ratio (value : Finite) : Ratio :=
  .scaled value.mantissa 2 value.exponent

/-- The half-way points to the two neighbours; what lies between them reads back as the number. -/
def bounds (value : Finite) : Ratio × Ratio :=
  let lower :=
    if value.mantissa = Nat.pow 2 52 ∧ value.exponent > -1074 then
      Ratio.scaled (4 * value.mantissa - 1) 2 (value.exponent - 2)
    else Ratio.scaled (2 * value.mantissa - 1) 2 (value.exponent - 1)
  (lower, .scaled (2 * value.mantissa + 1) 2 (value.exponent - 1))

/-- Whether `candidate` reads back as the number; the half-way points do if the mantissa is even. -/
def readsBack (value : Finite) (candidate : Ratio) : Bool :=
  let (lower, upper) := value.bounds
  if value.mantissa % 2 = 0 then !candidate.less lower && !upper.less candidate
  else lower.less candidate && candidate.less upper

/-- The nearer of the two multiples of `10 ^ exponent` beside the number that read back as it. -/
def onGrid (value : Finite) (exponent : Int) : Option Decimal :=
  let unit := Ratio.scaled 1 10 exponent
  let ratio := value.ratio
  let below := ratio.numerator * unit.denominator / (ratio.denominator * unit.numerator)
  let point (digits : Nat) : Ratio := .scaled digits 10 exponent
  let hit (digits : Nat) : Bool := digits ≠ 0 && value.readsBack (point digits)
  match hit below, hit (below + 1) with
  | false, false => none
  | true, false => some ⟨below, exponent⟩
  | false, true => some ⟨below + 1, exponent⟩
  | true, true =>
      let down := (point below).distance ratio
      let up := (point (below + 1)).distance ratio
      if down.less up || (!up.less down && below % 2 = 0) then some ⟨below, exponent⟩
      else some ⟨below + 1, exponent⟩

/-- The first grid, from coarse to fine, with a number that reads back. -/
def search (value : Finite) : (grids : Nat) → (exponent : Int) → Decimal
  | 0, exponent => ⟨0, exponent⟩
  | grids + 1, exponent =>
      match value.onGrid exponent with
      | some decimal => decimal
      | none => value.search grids (exponent - 1)

def shortest (value : Finite) : Decimal :=
  if value.mantissa = 0 then ⟨0, 0⟩
  else value.search 18 (value.ratio.magnitude 640 (-324))

end Finite

namespace Decimal

def positional (decimal : Decimal) : String :=
  let digits := toString decimal.digits
  if decimal.exponent < 0 then
    let places := decimal.exponent.natAbs
    let padded := String.ofList (List.replicate (places + 1 - digits.length) '0') ++ digits
    let whole := padded.length - places
    String.ofList (padded.toList.take whole) ++ "." ++ String.ofList (padded.toList.drop whole)
  else digits ++ String.ofList (List.replicate decimal.exponent.natAbs '0') ++ ".0"

end Decimal

def positional (bits : UInt64) : String :=
  match Binary64.ofBits bits with
  | .finite value => (if value.negative then "-" else "") ++ value.shortest.positional
  | .infinite negative => if negative then "-inf" else "inf"
  | .undefined => "NaN"

def hexadecimal (bits : UInt64) : String :=
  let digits := Nat.toDigits 16 bits.toNat
  String.ofList (List.replicate (16 - digits.length) '0' ++ digits)

end PolicyWarden.Number
