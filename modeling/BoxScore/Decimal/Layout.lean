import BoxScore.Decimal.Shortest

/- How a binary number is written as decimal text: the shortest digits that read back,
   laid out with or without a power of ten. -/
namespace BoxScore.Decimal

structure Layout where
  /-- Powers of the leading digit that are written without an exponent. -/
  positional : Int → Bool
  /-- Whole numbers keep a point and a zero. -/
  pointed : Bool
  tie : Tie
  infinite : Bool → String
  nan : String

/-- Digits without trailing zeros, and the power of ten of the leading one. -/
def Scaled.leading (s : Scaled) : List Char × Int :=
  let digits := Nat.toDigits 10 s.digits
  ((digits.reverse.dropWhile (· = '0')).reverse, s.power + digits.length - 1)

def zeros (count : Nat) : List Char := List.replicate count '0'

def Layout.plain (layout : Layout) (digits : List Char) (lead : Int) : List Char :=
  if lead < 0 then '0' :: '.' :: (zeros (lead.natAbs - 1) ++ digits)
  else
    let whole := lead.natAbs + 1
    if digits.length ≤ whole then
      digits ++ zeros (whole - digits.length) ++ (if layout.pointed then ['.', '0'] else [])
    else digits.take whole ++ '.' :: digits.drop whole

def exponential (digits : List Char) (lead : Int) : List Char :=
  digits.take 1 ++ (if digits.length ≤ 1 then [] else '.' :: digits.drop 1) ++
    'e' :: (if lead < 0 then '-' else '+') :: Nat.toDigits 10 lead.natAbs

def Layout.magnitude (layout : Layout) (significand : Nat) (exponent : Int) : List Char :=
  if significand = 0 then layout.plain ['0'] 0
  else
    let (digits, lead) := (shortest layout.tie significand exponent).leading
    if layout.positional lead then layout.plain digits lead else exponential digits lead

def Layout.write (layout : Layout) : Binary64 → String
  | .finite negative significand exponent =>
    String.ofList
      ((if negative then ['-'] else []) ++ layout.magnitude significand exponent)
  | .infinite negative => layout.infinite negative
  | .nan => layout.nan

end BoxScore.Decimal
