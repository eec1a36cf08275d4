import BoxScore.Query.Clause
import BoxScore.Query.Expression
import BoxScore.Token.Scan
import BoxScore.Token.Stream

/- Programs read from their tokens. Line feeds separate nothing, so they are dropped
   before the reading starts, and the last token of the input is its end. -/
namespace BoxScore

namespace Reading

def declaration (kind : Entity) (ts : List Token) : Attempt (Declaration × List Token) := do
  let (name, rest) ← take .identifier ("variable name after '" ++ kind.spelling ++ "'") ts
  if headKind rest = .comparison .eq then
    let (initial, rest) ← expression rest.tail
    return (⟨kind, name.text, some initial⟩, rest)
  else return (⟨kind, name.text, none⟩, rest)

def scope : List Token → Attempt (Scope × List Token)
  | [] => refuse "scope after 'get'" []
  | t :: rest =>
    match t.kind with
    | .keyword (.aggregate .avg) => do
      let (_, rest) ← take (.punctuation .leftParen) "'(' after 'avg'" rest
      let (_, rest) ← take (.keyword .games) "'games' after 'avg('" rest
      let (_, rest) ← take (.punctuation .rightParen) "')' after 'games'" rest
      return (.averageGames, rest)
    | .keyword .games => .ok (.games, rest)
    | .keyword .seasons => .ok (.seasons, rest)
    | .keyword .careers => .ok (.careers, rest)
    | .identifier => .ok (.named t.text, rest)
    | _ => refuse "scope after 'get'" (t :: rest)

theorem declaration_shortens {kind : Entity} {ts rest : List Token} {d : Declaration}
    (read : declaration kind ts = .ok (d, rest)) : rest.length < ts.length := by
  obtain ⟨⟨name, middle⟩, first, read⟩ := bind_eq_ok read
  have shorter := take_shortens first
  simp only at read
  split at read
  · obtain ⟨⟨initial, last⟩, second, read⟩ := bind_eq_ok read
    have shorter' := expression_shortens second
    rw [List.length_tail] at shorter'
    cases read
    simp only
    omega
  · cases read
    exact shorter

def declarations (ts : List Token) : Attempt (List Declaration × List Token) :=
  match (headKind ts).entity? with
  | none => .ok ([], ts)
  | some kind =>
    match read : declaration kind ts.tail with
    | .error r => .error r
    | .ok (d, rest) => do
      have := declaration_shortens read
      let (ds, rest) ← declarations rest
      return (d :: ds, rest)
termination_by ts.length
decreasing_by simp only [List.length_tail] at this; omega

def moreFilters (ts : List Token) : Attempt (List Expr × List Token) :=
  if headKind ts = .keyword .andWord then
    match read : expression ts.tail with
    | .error r => .error r
    | .ok (e, rest) => do
      have := expression_shortens read
      let (es, rest) ← moreFilters rest
      return (e :: es, rest)
  else .ok ([], ts)
termination_by ts.length
decreasing_by simp only [List.length_tail] at this; omega

def filters (ts : List Token) : Attempt (List Expr × List Token) := do
  if headKind ts = .keyword .whereWord then
    let (e, rest) ← expression ts.tail
    let (es, rest) ← moreFilters rest
    return (e :: es, rest)
  else return ([], ts)

def query (ts : List Token) : Attempt (Query × List Token) := do
  let (scope, rest) ← scope ts
  let (filters, rest) ← filters rest
  let (clauses, rest) ← clauses rest
  return (clauses.foldl Clause.put ⟨scope, filters, none, none, none⟩, rest)

def query? (ts : List Token) : Attempt (Option Query × List Token) := do
  if headKind ts = .keyword .get then
    let (q, rest) ← query ts.tail
    return (some q, rest)
  else return (none, ts)

/-- The program in front of the end of input, which itself stays unread. -/
def program (ts : List Token) : Attempt (Program × List Token) := do
  let (declarations, rest) ← declarations ts
  let (query, rest) ← query? rest
  if headKind rest = .eof then return (⟨declarations, query⟩, rest)
  else refuse (if query.isSome then "end of input" else "declaration or 'get'") rest

end Reading

namespace TokenStream

def fault (s : TokenStream) (r : Reading.Refusal) : Fault :=
  let t := r.rest.headD s.last
  .unexpectedToken r.expected t.shown t.position

/-- Reads one program. After a fault the reading can go on at the token at fault. -/
def program (s : TokenStream) : Except Fault Program × TokenStream :=
  match Reading.program s.ahead with
  | .ok (p, rest) => (.ok p, s.upTo rest)
  | .error r => (.error (s.fault r), s.upTo r.rest)

def programs : Nat → TokenStream → List (Except Fault Program)
  | 0, _ => []
  | count + 1, s => s.program.1 :: programs count s.program.2

end TokenStream

def Program.parse (source : String) : Except Fault Program := do
  let tokens ← Token.scan source
  (TokenStream.ofTokens tokens).program.1

end BoxScore
