import BoxScore.Value
import BoxScore.Vocabulary

/- Programs of the query language: declarations of variables, then at most one query. -/
namespace BoxScore

inductive LiteralKind where
  | number
  | string
  | canonicalName
  | date
  | boolean
  deriving DecidableEq, Repr

inductive Expr where
  | compare (left : Expr) (op : Comparison) (right : Expr)
  | field (owner name : String)
  | literal (value : Value) (kind : LiteralKind)
  | name (text : String)
  | aggregate (function : Aggregate) (argument : Expr)
  deriving DecidableEq, Repr

inductive Scope where
  | games
  | seasons
  | careers
  | averageGames
  | named (text : String)
  deriving DecidableEq, Repr

def Scope.text : Scope → String
  | .games => "games"
  | .seasons => "seasons"
  | .careers => "careers"
  | .averageGames => "avg(games)"
  | .named text => text

structure Selection where
  fields : List String
  basic : Bool
  deriving DecidableEq, Repr

structure RowOrder where
  field : String
  ascending : Bool
  deriving DecidableEq, Repr

structure Query where
  scope : Scope
  filters : List Expr
  selection : Option Selection
  order : Option RowOrder
  limit : Option UInt64
  deriving DecidableEq, Repr

structure Declaration where
  kind : Entity
  name : String
  initial : Option Expr
  deriving DecidableEq, Repr

structure Program where
  declarations : List Declaration
  query : Option Query
  deriving DecidableEq, Repr

def Program.empty : Program := ⟨[], none⟩

end BoxScore
