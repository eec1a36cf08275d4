import BoxScore.Position
import BoxScore.Vocabulary

/- The reasons for which a query is refused. -/
namespace BoxScore

inductive Fault where
  | unexpectedCharacter (found : Char) (position : Position)
  | unterminatedString (position : Position)
  | unexpectedToken (expected found : String) (position : Position)
  | undefinedVariable (name : String)
  | duplicateVariable (name : String)
  | unknownRelation (name : String)
  | incompatibleRelation (relation : Relation) (source declared : Entity)
  | unsupportedScope (scope : String)
  | unknownSeason (name : String)
  | sourceTooLarge (size limit : Nat)
  deriving DecidableEq, Repr

namespace Fault

def place (p : Position) : String :=
  "line " ++ toString p.line ++ ", column " ++ toString p.column

def message : Fault → String
  | .unexpectedCharacter c p =>
    "Lexical error at " ++ place p ++ ": unexpected character '" ++ c.toString ++ "'"
  | .unterminatedString p => "Lexical error at " ++ place p ++ ": unterminated string"
  | .unexpectedToken expected found p =>
    "Parse error at " ++ place p ++ ": expected " ++ expected ++ ", found '" ++ found ++ "'"
  | .undefinedVariable name => "Bind error: Undefined variable: " ++ name
  | .duplicateVariable name => "Bind error: Duplicate variable: " ++ name
  | .unknownRelation name =>
    "Bind error: Unknown relationship: '" ++ name ++ "' (valid: " ++
      ", ".intercalate (Relation.all.map Relation.spelling) ++ ")"
  | .incompatibleRelation relation .player declared =>
    "Bind error: '" ++ relation.spelling ++ "' relationship cannot bind a " ++
      declared.spelling ++ " variable"
  | .incompatibleRelation relation source _ =>
    "Bind error: '" ++ relation.spelling ++
      "' relationship is only valid from Player variables, not " ++ source.spelling
  | .unsupportedScope scope =>
    "Unsupported scope: '" ++ scope ++ "' (only 'games' and 'avg(games)' are supported)"
  | .unknownSeason name => "Unknown season: '" ++ name ++ "'"
  | .sourceTooLarge size limit =>
    "Query source is " ++ toString size ++ " bytes, limit is " ++ toString limit ++ " bytes"

def position? : Fault → Option Position
  | .unexpectedCharacter _ p => some p
  | .unterminatedString p => some p
  | .unexpectedToken _ _ p => some p
  | _ => none

end Fault
end BoxScore
