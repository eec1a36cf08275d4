import BoxScore.Decimal.Fraction

/- Binary floating point with 53 bits of significand, as data: a finite number is a
   signed significand times a power of two. Rounding is exact, on natural numbers. -/
namespace BoxScore

/-- In a finite number the significand is below `significandLimit`; unless the exponent
    is the least one it is also at least half of that, so each value is written in one
    way. -/
inductive Binary64 where
  | finite (negative : Bool) (significand : Nat) (exponent : Int)
  | infinite (negative : Bool)
  | nan
  deriving DecidableEq, Repr

namespace Binary64

def significandLimit : Nat := Nat.pow 2 53
def leastNormal : Nat := Nat.pow 2 52
def leastExponent : Int := -1074
def greatestExponent : Int := 971

def zero (negative : Bool) : Binary64 := .finite negative 0 leastExponent

def isFinite : Binary64 → Bool
  | .finite _ _ _ => true
  | _ => false

def magnitude (significand : Nat) (exponent : Int) : Fraction :=
  (Fraction.whole significand).scale 2 exponent

/-- The exponent at which a fraction has 53 bits before the binary point, or the least
    exponent if that is larger. -/
def exponentOf (f : Fraction) : Int :=
  let low : Int := (f.num.log2 : Int) - f.den.log2 - 53
  let exponent :=
    if (f.scale 2 (-low)).lt (.whole significandLimit) then low else low + 1
  if exponent < leastExponent then leastExponent else exponent

/-- The number nearest to a fraction, ties to the even significand. Fractions past the
    greatest finite number by half a unit or more become infinite. -/
def ofFraction (negative : Bool) (f : Fraction) : Binary64 :=
  let exponent := exponentOf f
  let significand := (f.scale 2 (-exponent)).round
  let (significand, exponent) :=
    if significand = significandLimit then (leastNormal, exponent + 1)
    else (significand, exponent)
  if greatestExponent < exponent then .infinite negative
  else .finite negative significand exponent

/-- The number nearest to `digits * 10 ^ power`. Powers so large or so small that the
    result is infinite or zero whatever the digits are settled without computing them. -/
def ofDecimal (negative : Bool) (digits : Nat) (power : Int) : Binary64 :=
  let width : Int := (Nat.toDigits 10 digits).length
  if digits = 0 || power + width < -330 then zero negative
  else if 330 < power + width then .infinite negative
  else ofFraction negative ((Fraction.whole digits).scale 10 power)

end Binary64
end BoxScore
