import BoxScore.Vocabulary

/- Terms and conditions of a statement as data. Values are not written into a term:
   each is a parameter, and a term is read with the parameters numbered from left to
   right. -/
namespace BoxScore.Sql

inductive NumericType where
  | real
  | integer
  deriving DecidableEq, Repr

def NumericType.text : NumericType → String
  | .real => "REAL"
  | .integer => "INTEGER"

/-- Terms over parameters of type `α`; a term over `Empty` has none. -/
inductive Term (α : Type) where
  | column (table name : String)
  | word (text : String)
  | parameter (value : α)
  | fullName (table : String)
  | cast (term : Term α) (type : NumericType)
  | aggregate (function : Aggregate) (term : Term α)
  | countRows
  | distance (left right : Term α)
  | compare (left : Term α) (op : Comparison) (right : Term α)
  | both (left right : Term α)
  | either (left right : Term α)
  | group (term : Term α)
  | always
  deriving DecidableEq, Repr

namespace Term

variable {α : Type}

def values : Term α → List α
  | .parameter value => [value]
  | .cast t _ | .aggregate _ t | .group t => t.values
  | .distance l r | .compare l _ r | .both l r | .either l r => l.values ++ r.values
  | .column _ _ | .word _ | .fullName _ | .countRows | .always => []

def numbered (bound : Nat) : Term α → Term Nat
  | .column table name => .column table name
  | .word text => .word text
  | .parameter _ => .parameter (bound + 1)
  | .fullName table => .fullName table
  | .cast t type => .cast (t.numbered bound) type
  | .aggregate f t => .aggregate f (t.numbered bound)
  | .countRows => .countRows
  | .distance l r => .distance (l.numbered bound) (r.numbered (bound + l.values.length))
  | .compare l op r => .compare (l.numbered bound) op (r.numbered (bound + l.values.length))
  | .both l r => .both (l.numbered bound) (r.numbered (bound + l.values.length))
  | .either l r => .either (l.numbered bound) (r.numbered (bound + l.values.length))
  | .group t => .group (t.numbered bound)
  | .always => .always

def placeholder (n : Nat) : String := "?" ++ toString n

/-- The text of a term. Nested comparisons are not put in brackets. -/
def text (hole : α → String) : Term α → String
  | .column table name => table ++ "." ++ name
  | .word text => text
  | .parameter value => hole value
  | .fullName table => "TRIM(" ++ table ++ ".firstName || ' ' || " ++ table ++ ".lastName)"
  | .cast t type => "CAST(" ++ t.text hole ++ " AS " ++ type.text ++ ")"
  | .aggregate f t => f.sqlName ++ "(" ++ t.text hole ++ ")"
  | .countRows => "COUNT(*)"
  | .distance l r => "ABS(" ++ l.text hole ++ " - " ++ r.text hole ++ ")"
  | .compare l op r => l.text hole ++ " " ++ op.symbol ++ " " ++ r.text hole
  | .both l r => l.text hole ++ " AND " ++ r.text hole
  | .either l r => l.text hole ++ " OR " ++ r.text hole
  | .group t => "(" ++ t.text hole ++ ")"
  | .always => "1=1"

def tables : Term α → List String
  | .column table _ | .fullName table => [table]
  | .cast t _ | .aggregate _ t | .group t => t.tables
  | .distance l r | .compare l _ r | .both l r | .either l r => l.tables ++ r.tables
  | .word _ | .parameter _ | .countRows | .always => []

end Term

abbrev Fixed := Term Empty

def Fixed.text (t : Fixed) : String := Term.text Empty.elim t

def values {α : Type} (ts : List (Term α)) : List α := ts.flatMap Term.values

def numbered {α : Type} (bound : Nat) : List (Term α) → List (Term Nat)
  | [] => []
  | t :: ts => t.numbered bound :: numbered (bound + t.values.length) ts

def texts {α : Type} (bound : Nat) (ts : List (Term α)) : List String :=
  (numbered bound ts).map (Term.text Term.placeholder)

end BoxScore.Sql
