import BoxScore.Decimal.Binary64

/- The shortest decimal that reads back as a given binary number. A grid of decimals
   with one, two, and so on up to seventeen significant digits is searched around the
   value; the first grid that has a point inside the interval of numbers rounding to
   the value gives the digits, the nearer of two such points being taken. -/
namespace BoxScore.Decimal

inductive Tie where
  | up
  | even
  deriving DecidableEq, Repr

structure Scaled where
  digits : Nat
  power : Int
  deriving DecidableEq, Repr

def Scaled.value (s : Scaled) : Fraction := (Fraction.whole s.digits).scale 10 s.power

def leadingPower (f : Fraction) : Int :=
  if f.den ≤ f.num then ((Nat.toDigits 10 f.floor).length : Int) - 1
  else
    let width := (Nat.toDigits 10 (f.den / f.num)).length
    if f.num * Nat.pow 10 (width - 1) = f.den then 1 - (width : Int) else -(width : Int)

structure Interval where
  low : Fraction
  high : Fraction
  closed : Bool

def Interval.holds (i : Interval) (f : Fraction) : Bool :=
  if i.closed then i.low.le f && f.le i.high else i.low.lt f && f.lt i.high

/-- The numbers that round to the finite number `significand * 2 ^ exponent`. Below a
    power of two the neighbour is only half as far, except at the least exponent. -/
def roundingInterval (significand : Nat) (exponent : Int) : Interval :=
  let below :=
    if significand = Binary64.leastNormal && Binary64.leastExponent < exponent then 1 else 2
  { low := Binary64.magnitude (4 * significand - below) (exponent - 2)
    high := Binary64.magnitude (4 * significand + 2) (exponent - 2)
    closed := significand % 2 == 0 }

def Tie.takesUpper (tie : Tie) (f : Fraction) : Bool :=
  match f.half, tie with
  | .lt, _ => false
  | .gt, _ => true
  | .eq, .up => true
  | .eq, .even => f.floor % 2 == 1

def onGrid (tie : Tie) (f : Fraction) (i : Interval) (power : Int) : Option Scaled :=
  let steps := f.scale 10 (-power)
  let lower : Scaled := ⟨steps.floor, power⟩
  let upper : Scaled := ⟨steps.floor + 1, power⟩
  match i.holds lower.value, i.holds upper.value with
  | true, true => some (if tie.takesUpper steps then upper else lower)
  | true, false => some lower
  | false, true => some upper
  | false, false => none

def firstOnGrid (tie : Tie) (f : Fraction) (i : Interval) : Nat → Int → Option Scaled
  | 0, _ => none
  | count + 1, power => (onGrid tie f i power).or (firstOnGrid tie f i count (power - 1))

def exactly (significand : Nat) (exponent : Int) : Scaled :=
  if exponent < 0 then ⟨significand * Nat.pow 5 exponent.natAbs, exponent⟩
  else ⟨significand * Nat.pow 2 exponent.natAbs, 0⟩

/-- Seventeen digits always read back, so the exact digits are a bound never reached. -/
def shortest (tie : Tie) (significand : Nat) (exponent : Int) : Scaled :=
  let f := Binary64.magnitude significand exponent
  (firstOnGrid tie f (roundingInterval significand exponent) 17 (leadingPower f)).getD
    (exactly significand exponent)

end BoxScore.Decimal
