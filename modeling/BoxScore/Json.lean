import BoxScore.Plan

/- Values and plans as JSON text. -/
namespace BoxScore

namespace Json

/-- Quotes, backslashes and control characters are escaped, nothing else is. -/
def escape (c : Char) : List Char :=
  match c with
  | '"' => ['\\', '"']
  | '\\' => ['\\', '\\']
  | '\n' => ['\\', 'n']
  | '\r' => ['\\', 'r']
  | '\t' => ['\\', 't']
  | c =>
    if c.toNat = 8 then ['\\', 'b']
    else if c.toNat = 12 then ['\\', 'f']
    else if c.toNat < 32 then
      ['\\', 'u', '0', '0', Nat.digitChar (c.toNat / 16), Nat.digitChar (c.toNat % 16)]
    else [c]

def string (s : String) : String := "\"" ++ String.ofList (s.toList.flatMap escape) ++ "\""

/-- Numbers keep a point; from the sixteenth place before it and the sixth behind it they
    are written with a power of ten. What is not finite is null, and an exact tie between
    two shortest decimals goes to the even one. -/
def numberLayout : Decimal.Layout where
  positional lead := -5 ≤ lead && lead ≤ 15
  pointed := true
  tie := .even
  infinite _ := "null"
  nan := "null"

def value : Value → String
  | .string s => string s
  | .int n => toString n.toInt
  | .float x => numberLayout.write x
  | .bool b => Value.boolText b

inductive Member where
  | one (text : String)
  | many (texts : List String)

def compactMember (member : String × Member) : String :=
  string member.1 ++ ":" ++ (match member.2 with
    | .one text => text
    | .many texts => "[" ++ ",".intercalate texts ++ "]")

def compact (members : List (String × Member)) : String :=
  "\x7b" ++ ",".intercalate (members.map compactMember) ++ "\x7d"

def prettyMember (member : String × Member) : String :=
  "  " ++ string member.1 ++ ": " ++ (match member.2 with
    | .one text => text
    | .many [] => "[]"
    | .many texts => "[\n" ++ ",\n".intercalate (texts.map ("    " ++ ·)) ++ "\n  ]")

def pretty (members : List (String × Member)) : String :=
  "\x7b\n" ++ ",\n".intercalate (members.map prettyMember) ++ "\n\x7d"

end Json

namespace Plan

def members (p : Plan) : List (String × Json.Member) :=
  [("sql", .one (Json.string p.sql)),
   ("parameters", .many (p.parameters.map Json.value)),
   ("result_shape", .one (Json.string p.shape.text)),
   ("referenced_fields", .many (p.referencedFields.map Json.string)),
   ("player_variables", .many (p.players.map Json.string))]

def json (p : Plan) : String := Json.compact p.members

def prettyJson (p : Plan) : String := Json.pretty p.members

end Plan
end BoxScore
