import BoxScore.Plan.Conditions
import BoxScore.Plan.Joins
import BoxScore.Plan.Projection

/- The answer of the compiler: one statement, its parameters, and what it is about. -/
namespace BoxScore

inductive Shape where
  | games
  | averages
  | unknown
  | raw (scope : String)
  deriving DecidableEq, Repr

namespace Shape

def ofScope : Scope → Shape
  | .games => .games
  | .averageGames => .averages
  | scope => .raw scope.text

def text : Shape → String
  | .games => "games"
  | .averages => "averages"
  | .unknown => "unknown"
  | .raw scope => scope

end Shape

/-- The fields and the players are in increasing order. -/
structure Plan where
  sql : String
  parameters : List Value
  shape : Shape
  referencedFields : List String
  players : List String
  deriving DecidableEq, Repr

def Expr.fields : Expr → List String
  | .compare left _ right => left.fields ++ right.fields
  | .field _ f => [f]
  | .aggregate _ argument => argument.fields
  | .literal _ _ | .name _ => []

/-- The fields named by the conditions and by the order of rows; averages have no order. -/
def Query.referencedFields (q : Query) : List String :=
  let ordered := match q.scope, q.order with
    | .averageGames, _ | _, none => []
    | _, some order => [order.field]
  Names.sorted (q.filters.flatMap Expr.fields ++ ordered)

namespace Plan

def parameter? (p : Plan) : Nat → Option Value
  | 0 => none
  | n + 1 => p.parameters[n]?

def isEmpty (p : Plan) : Bool := p.sql.isEmpty

def parameterLines (bound : Nat) : List Value → String
  | [] => ""
  | v :: vs =>
    "  " ++ Sql.Term.placeholder (bound + 1) ++ " = " ++ v.quoted ++ "\n" ++
      parameterLines (bound + 1) vs

def text (p : Plan) : String :=
  p.sql ++ "\n" ++ parameterLines 0 p.parameters ++ "  result: " ++ p.shape.text

def idle (r : Roster) : Plan := ⟨"", [], .unknown, [], Names.sorted r.players⟩

def gamesSelect (r : Roster) (defaultLimit : Option UInt64) (q : Query)
    (filters : List (Sql.Term Value)) : Sql.Select Value where
  projection := match q.selection with
    | some s => Projection.selected s
    | none => Projection.standard r q.referencedFields
  source := Schema.baseTable q.scope
  joins := r.joins
  filters := filters
  order := q.order.map fun order => ⟨Schema.sortTerm order.field, order.ascending⟩
  limit := q.limit.or defaultLimit

def averagesSelect (r : Roster) (q : Query) (filters : List (Sql.Term Value)) :
    Sql.Select Value where
  projection := Projection.averages
  source := Schema.baseTable q.scope
  joins := r.joins
  filters := filters
  order := none
  limit := none

def ofSelect (r : Roster) (q : Query) (s : Sql.Select Value) : Plan :=
  ⟨s.text, s.parameters, .ofScope q.scope, q.referencedFields, Names.sorted r.players⟩

/-- Only games and averages of games have a statement. -/
def ofQuery (r : Roster) (defaultLimit : Option UInt64) (q : Query) : Except Fault Plan :=
  match q.scope with
  | .games => do
    let filters ← r.conditions q.filters
    return ofSelect r q (gamesSelect r defaultLimit q filters)
  | .averageGames => do
    let filters ← r.conditions q.filters
    return ofSelect r q (averagesSelect r q filters)
  | scope => .error (.unsupportedScope scope.text)

def ofQuery? (r : Roster) (defaultLimit : Option UInt64) : Option Query → Except Fault Plan
  | none => .ok (idle r)
  | some q => ofQuery r defaultLimit q

end Plan
end BoxScore
