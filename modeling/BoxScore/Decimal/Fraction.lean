/- Fractions of natural numbers, not reduced, with a denominator that is never zero
   where they come from. -/
namespace BoxScore

structure Fraction where
  num : Nat
  den : Nat
  deriving DecidableEq, Repr

namespace Fraction

def whole (n : Nat) : Fraction := ⟨n, 1⟩

def scale (f : Fraction) (base : Nat) (power : Int) : Fraction :=
  if power < 0 then ⟨f.num, f.den * Nat.pow base power.natAbs⟩
  else ⟨f.num * Nat.pow base power.natAbs, f.den⟩

def lt (f g : Fraction) : Bool := f.num * g.den < g.num * f.den

def le (f g : Fraction) : Bool := f.num * g.den ≤ g.num * f.den

def floor (f : Fraction) : Nat := f.num / f.den

/-- Where the fraction lies between its floor and the next whole number, compared with
    the middle. -/
def half (f : Fraction) : Ordering := compare (2 * (f.num % f.den)) f.den

/-- The nearest whole number; of two equally near the even one. -/
def round (f : Fraction) : Nat :=
  match f.half with
  | .lt => f.floor
  | .gt => f.floor + 1
  | .eq => f.floor + f.floor % 2

end Fraction
end BoxScore
