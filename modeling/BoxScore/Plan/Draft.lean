import BoxScore.Plan.Conditions

/- Fragments of a statement written one after the other over one roster. The parameters
   of a fragment take the numbers behind those of the fragments before it. -/
namespace BoxScore

open Sql

structure Draft where
  roster : Roster
  bound : List Value
  deriving DecidableEq

namespace Draft

def start (r : Roster) : Draft := ⟨r, []⟩

def bind (d : Draft) (value : Value) : String × Draft :=
  (Term.placeholder (d.bound.length + 1), { d with bound := d.bound ++ [value] })

def write (d : Draft) (ts : List (Term Value)) : List String × Draft :=
  (texts d.bound.length ts, { d with bound := d.bound ++ values ts })

def expression (d : Draft) (e : Expr) : Except Fault (String × Draft) := do
  let t ← d.roster.term e
  return ((t.numbered d.bound.length).text Term.placeholder,
    { d with bound := d.bound ++ t.values })

def conditions (d : Draft) (filters : List Expr) : Except Fault (List String × Draft) := do
  let ts ← d.roster.conditions filters
  return d.write ts

end Draft
end BoxScore
