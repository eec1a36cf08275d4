/- Whole numbers read from text: decimal digits, an optional sign in front. -/
namespace BoxScore.Text

def digitValue (c : Char) : Nat := c.toNat - '0'.toNat

def digitsValue (digits : List Char) : Nat :=
  digits.foldl (fun value c => 10 * value + digitValue c) 0

def readDigits (cs : List Char) : Option Nat :=
  if cs ≠ [] && cs.all Char.isDigit then some (digitsValue cs) else none

def splitSign : List Char → Bool × List Char
  | '-' :: cs => (true, cs)
  | '+' :: cs => (false, cs)
  | cs => (false, cs)

def readInt64 (text : String) : Option Int64 :=
  let (negative, cs) := splitSign text.toList
  match readDigits cs with
  | none => none
  | some n =>
    if negative then if n ≤ Nat.pow 2 63 then some (Int64.ofInt (-n)) else none
    else if n < Nat.pow 2 63 then some (Int64.ofInt n) else none

/-- A plus may stand in front, a minus may not. -/
def readUInt64 (text : String) : Option UInt64 :=
  let cs := match text.toList with
    | '+' :: cs => cs
    | cs => cs
  match readDigits cs with
  | none => none
  | some n => if n < Nat.pow 2 64 then some (UInt64.ofNat n) else none

end BoxScore.Text
