/- Sets of names as ordered lists. -/
namespace BoxScore.Names

def insert (name : String) : List String → List String
  | [] => [name]
  | n :: ns =>
    if name < n then name :: n :: ns
    else if n < name then n :: insert name ns
    else n :: ns

def sorted (names : List String) : List String := names.foldr insert []

end BoxScore.Names
