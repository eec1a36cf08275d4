/- The closed word lists of the query language: what can be declared, how variables
   relate, how values are compared and what can be aggregated. -/
namespace BoxScore

inductive Entity where
  | player
  | team
  | opponent
  deriving DecidableEq, Repr

def Entity.spelling : Entity → String
  | .player => "Player"
  | .team => "Team"
  | .opponent => "Opponent"

inductive Relation where
  | opponent
  | team
  | played
  deriving DecidableEq, Repr

namespace Relation

def all : List Relation := [.opponent, .team, .played]

def spelling : Relation → String
  | .opponent => "opponent"
  | .team => "team"
  | .played => "played"

def ofSpelling? (text : String) : Option Relation := all.find? (·.spelling == text)

def links : Relation → (source declared : Entity) → Bool
  | .opponent, .player, _ => true
  | .team, .player, .team => true
  | .played, .player, .player => true
  | _, _, _ => false

end Relation

inductive Comparison where
  | eq
  | ne
  | lt
  | le
  | gt
  | ge
  deriving DecidableEq, Repr

namespace Comparison

def all : List Comparison := [.eq, .ne, .lt, .le, .gt, .ge]

def symbol : Comparison → String
  | .eq => "="
  | .ne => "!="
  | .lt => "<"
  | .le => "<="
  | .gt => ">"
  | .ge => ">="

def ofSymbol? (text : String) : Option Comparison := all.find? (·.symbol == text)

def isEquality : Comparison → Bool
  | .eq | .ne => true
  | _ => false

end Comparison

inductive Aggregate where
  | avg
  | sum
  | count
  | min
  | max
  deriving DecidableEq, Repr

namespace Aggregate

def spelling : Aggregate → String
  | .avg => "avg"
  | .sum => "sum"
  | .count => "count"
  | .min => "min"
  | .max => "max"

def sqlName : Aggregate → String
  | .avg => "AVG"
  | .sum => "SUM"
  | .count => "COUNT"
  | .min => "MIN"
  | .max => "MAX"

end Aggregate
end BoxScore
