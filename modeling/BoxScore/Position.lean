/- Places in a source text, both numbers counted from one. Only a line feed starts a
   line; every other character moves one column on. -/
namespace BoxScore

structure Position where
  line : Nat
  column : Nat
  deriving DecidableEq, Repr

namespace Position

def start : Position := ⟨1, 1⟩

def next (p : Position) (c : Char) : Position :=
  if c = '\n' then ⟨p.line + 1, 1⟩ else ⟨p.line, p.column + 1⟩

def after (p : Position) (cs : List Char) : Position := cs.foldl next p

end Position
end BoxScore
