import BoxScore.Decimal.Layout

/- Values that a query writes down and that a statement receives as parameters. -/
namespace BoxScore

inductive Value where
  | string (text : String)
  | int (number : Int64)
  | float (number : Binary64)
  | bool (truth : Bool)
  deriving DecidableEq, Repr

namespace Value

def typeName : Value → String
  | .string _ => "STRING"
  | .int _ => "INT64"
  | .float _ => "FLOAT64"
  | .bool _ => "BOOL"

/-- Numbers in messages have no exponent and no empty fraction; an exact tie between
    two shortest decimals goes up. -/
def numberLayout : Decimal.Layout where
  positional _ := true
  pointed := false
  tie := .up
  infinite negative := if negative then "-inf" else "inf"
  nan := "NaN"

def boolText (truth : Bool) : String := if truth then "true" else "false"

def text : Value → String
  | .string s => s
  | .int n => toString n.toInt
  | .float x => numberLayout.write x
  | .bool b => boolText b

/-- The text of a value in a report: strings stand between quotes, unescaped. -/
def quoted : Value → String
  | .string s => "\"" ++ s ++ "\""
  | v => v.text

def string? : Value → Option String
  | .string s => some s
  | _ => none

def int? : Value → Option Int64
  | .int n => some n
  | _ => none

def float? : Value → Option Binary64
  | .float x => some x
  | _ => none

def bool? : Value → Option Bool
  | .bool b => some b
  | _ => none

end Value
end BoxScore
