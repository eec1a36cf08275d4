import BoxScore.Roster
import BoxScore.Schema

/- The names under which a statement reads the statistics of its variables. -/
namespace BoxScore

/-- Either all variables share one join of the statistics, or each has its own. -/
inductive Aliasing where
  | shared
  | perVariable
  deriving DecidableEq, Repr

def statsAlias (name : String) : String := name ++ "_stats"

def teamAlias (name : String) : String := name ++ "_team"

def Aliasing.stats : Aliasing → String → String
  | .shared, _ => Schema.statisticsTable
  | .perVariable, name => statsAlias name

/-- Two players, or a variable tied to another, need joins of their own. -/
def Roster.aliasing (r : Roster) : Aliasing :=
  if 1 < r.playerCount || r.hasRelated then .perVariable else .shared

end BoxScore
