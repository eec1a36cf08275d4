import BoxScore.Decimal.Binary64
import BoxScore.Text.Numeral

/- Decimal text read as the nearest binary number. A sign may stand in front, then
   digits with at most one point and at least one digit in all, then a power of ten
   after the letter e; or one of the words inf, infinity and nan in any case. -/
namespace BoxScore.Decimal

open BoxScore.Text

def readPower : List Char → Option Int
  | [] => some 0
  | c :: cs =>
    if c = 'e' || c = 'E' then
      let (negative, digits) := splitSign cs
      (readDigits digits).map fun n => if negative then -(n : Int) else n
    else none

def splitPoint : List Char → List Char × List Char
  | '.' :: cs => (cs.takeWhile Char.isDigit, cs.dropWhile Char.isDigit)
  | cs => ([], cs)

def readMagnitude (negative : Bool) (cs : List Char) : Option Binary64 :=
  let whole := cs.takeWhile Char.isDigit
  let (part, rest) := splitPoint (cs.dropWhile Char.isDigit)
  if whole ++ part = [] then none
  else (readPower rest).map fun power =>
    Binary64.ofDecimal negative (digitsValue (whole ++ part)) (power - part.length)

def read (text : String) : Option Binary64 :=
  let (negative, cs) := splitSign text.toList
  let word := String.ofList (cs.map Char.toLower)
  if word = "inf" || word = "infinity" then some (.infinite negative)
  else if word = "nan" then some .nan
  else readMagnitude negative cs

end BoxScore.Decimal
