import BoxScore.Sql.Term

/- A statement that reads rows: its clauses as data, and the order in which their texts
   are put together. -/
namespace BoxScore.Sql

structure Clauses where
  projection : List String
  source : String
  joins : List String
  filters : List String
  order : Option String
  limit : Option UInt64
  deriving DecidableEq, Repr

def Clauses.text (c : Clauses) : String :=
  "SELECT " ++ ", ".intercalate c.projection ++ " FROM " ++ c.source ++
    String.join (c.joins.map (" " ++ ·)) ++
    (if c.filters.isEmpty then "" else " WHERE " ++ " AND ".intercalate c.filters) ++
    (match c.order with
      | some order => " ORDER BY " ++ order
      | none => "") ++
    (match c.limit with
      | some count => " LIMIT " ++ toString count.toNat
      | none => "")

structure Item where
  term : Fixed
  label : Option String
  deriving DecidableEq, Repr

def Item.text (i : Item) : String :=
  match i.label with
  | some label => i.term.text ++ " AS " ++ label
  | none => i.term.text

structure Join where
  table : String
  alias? : Option String
  condition : Fixed
  deriving DecidableEq, Repr

namespace Join

def name (j : Join) : String := j.alias?.getD j.table

def text (j : Join) : String :=
  let renamed := match j.alias? with
    | some name => " AS " ++ name
    | none => ""
  "LEFT JOIN " ++ j.table ++ renamed ++ " ON " ++ j.condition.text

end Join

structure SortKey where
  term : Fixed
  ascending : Bool
  deriving DecidableEq, Repr

def SortKey.text (k : SortKey) : String :=
  k.term.text ++ (if k.ascending then " ASC" else " DESC")

/-- A statement over parameters of type `α`; only its conditions have any. -/
structure Select (α : Type) where
  projection : List Item
  source : String
  joins : List Join
  filters : List (Term α)
  order : Option SortKey
  limit : Option UInt64
  deriving DecidableEq, Repr

namespace Select

variable {α : Type}

def parameters (s : Select α) : List α := values s.filters

def clauses (s : Select α) : Clauses where
  projection := s.projection.map Item.text
  source := s.source
  joins := s.joins.map Join.text
  filters := texts 0 s.filters
  order := s.order.map SortKey.text
  limit := s.limit

def text (s : Select α) : String := s.clauses.text

end Select
end BoxScore.Sql
