import BoxScore.Query.Attempt
import BoxScore.Text.Numeral

/- The clauses behind the conditions of a query, in any order and number. -/
namespace BoxScore.Reading

def moreFields (ts : List Token) : Attempt (List String × List Token) :=
  if headKind ts = .punctuation .comma then
    match read : take .identifier "field name after ','" ts.tail with
    | .error r => .error r
    | .ok (field, rest) => do
      have := take_shortens read
      let (fields, rest) ← moreFields rest
      return (field.text :: fields, rest)
  else .ok ([], ts)
termination_by ts.length
decreasing_by simp only [List.length_tail] at this; omega

/-- The switch behind the fields; it is on unless it is turned off. -/
def basicSwitch (ts : List Token) : Attempt (Bool × List Token) := do
  if headKind ts = .keyword .basic then
    let (_, rest) ← take (.comparison .eq) "'=' after 'basic'" ts.tail
    match headKind rest with
    | .keyword .falseWord => return (false, rest.tail)
    | .keyword .trueWord => return (true, rest.tail)
    | _ => refuse "'true' or 'false' after 'basic='" rest
  else return (true, ts)

def selection (ts : List Token) : Attempt (Selection × List Token) := do
  let (field, rest) ← take .identifier "field name after 'select'" ts
  let (fields, rest) ← moreFields rest
  let (basic, rest) ← basicSwitch rest
  return (⟨field.text :: fields, basic⟩, rest)

def rowOrder (ts : List Token) : Attempt (RowOrder × List Token) := do
  match headKind ts with
  | .keyword .most =>
    let (field, rest) ← take .identifier "field name after order keyword" ts.tail
    return (⟨field.text, false⟩, rest)
  | .keyword .least =>
    let (field, rest) ← take .identifier "field name after order keyword" ts.tail
    return (⟨field.text, true⟩, rest)
  | _ => refuse "'most' or 'least'" ts

def rowCount : List Token → Attempt (UInt64 × List Token)
  | [] => refuse "number after 'limit'" []
  | t :: rest =>
    if t.kind = .number then
      match Text.readUInt64 t.text with
      | some n => .ok (n, rest)
      | none => refuse "whole row count after 'limit'" (t :: rest)
    else refuse "number after 'limit'" (t :: rest)

inductive Clause where
  | selection (s : Selection)
  | order (o : RowOrder)
  | limit (count : UInt64)
  deriving DecidableEq, Repr

def clause? (ts : List Token) : Option (Attempt (Clause × List Token)) :=
  match headKind ts with
  | .keyword .select => some do
    let (s, rest) ← selection ts.tail
    return (.selection s, rest)
  | .keyword .order => some do
    let (_, rest) ← take (.keyword .byWord) "'by' after 'order'" ts.tail
    let (o, rest) ← rowOrder rest
    return (.order o, rest)
  | .keyword .most | .keyword .least => some do
    let (o, rest) ← rowOrder ts
    return (.order o, rest)
  | .keyword .limit => some do
    let (n, rest) ← rowCount ts.tail
    return (.limit n, rest)
  | _ => none

theorem moreFields_length_le (ts : List Token) :
    ∀ fields rest, moreFields ts = .ok (fields, rest) → rest.length ≤ ts.length := by
  fun_induction moreFields ts with
  | case1 ts comma r failed => intro fields rest read; cases read
  | case2 ts comma field rest' read' shorter ih =>
    intro fields rest read
    obtain ⟨⟨more, last⟩, inner, read⟩ := bind_eq_ok read
    have le := ih _ _ inner
    rw [List.length_tail] at shorter
    cases read
    omega
  | case3 ts other =>
    intro fields rest read
    cases read
    exact Nat.le_refl _

theorem basicSwitch_length_le {ts rest : List Token} {basic : Bool}
    (read : basicSwitch ts = .ok (basic, rest)) : rest.length ≤ ts.length := by
  unfold basicSwitch at read
  split at read
  · obtain ⟨⟨equals, middle⟩, first, read⟩ := bind_eq_ok read
    have shorter := take_shortens first
    rw [List.length_tail] at shorter
    simp only at read
    split at read
    · cases read
      rw [List.length_tail]
      omega
    · cases read
      rw [List.length_tail]
      omega
    · cases read
  · cases read
    exact Nat.le_refl _

theorem selection_shortens {ts rest : List Token} {s : Selection}
    (read : selection ts = .ok (s, rest)) : rest.length < ts.length := by
  obtain ⟨⟨field, afterField⟩, first, read⟩ := bind_eq_ok read
  obtain ⟨⟨fields, afterFields⟩, second, read⟩ := bind_eq_ok read
  obtain ⟨⟨basic, last⟩, third, read⟩ := bind_eq_ok read
  have one := take_shortens first
  have two := moreFields_length_le _ _ _ second
  have three := basicSwitch_length_le third
  cases read
  omega

theorem rowOrder_shortens {ts rest : List Token} {o : RowOrder}
    (read : rowOrder ts = .ok (o, rest)) : rest.length < ts.length := by
  unfold rowOrder at read
  split at read
  · obtain ⟨⟨field, last⟩, first, read⟩ := bind_eq_ok read
    have shorter := take_shortens first
    rw [List.length_tail] at shorter
    cases read
    omega
  · obtain ⟨⟨field, last⟩, first, read⟩ := bind_eq_ok read
    have shorter := take_shortens first
    rw [List.length_tail] at shorter
    cases read
    omega
  · cases read

theorem rowCount_shortens {ts rest : List Token} {count : UInt64}
    (read : rowCount ts = .ok (count, rest)) : rest.length < ts.length := by
  cases ts with
  | nil => cases read
  | cons t ts =>
    simp only [rowCount] at read
    split at read
    · split at read <;> cases read
      simp
    · cases read

theorem clause?_shortens {ts rest : List Token} {c : Clause}
    (read : clause? ts = some (.ok (c, rest))) : rest.length < ts.length := by
  unfold clause? at read
  split at read
  · obtain ⟨⟨s, last⟩, first, read⟩ := bind_eq_ok (Option.some.inj read)
    have shorter := selection_shortens first
    rw [List.length_tail] at shorter
    cases read
    omega
  · obtain ⟨⟨word, middle⟩, first, read⟩ := bind_eq_ok (Option.some.inj read)
    obtain ⟨⟨o, last⟩, second, read⟩ := bind_eq_ok read
    have one := take_shortens first
    have two := rowOrder_shortens second
    rw [List.length_tail] at one
    cases read
    omega
  · obtain ⟨⟨o, last⟩, first, read⟩ := bind_eq_ok (Option.some.inj read)
    have shorter := rowOrder_shortens first
    cases read
    exact shorter
  · obtain ⟨⟨o, last⟩, first, read⟩ := bind_eq_ok (Option.some.inj read)
    have shorter := rowOrder_shortens first
    cases read
    exact shorter
  · obtain ⟨⟨n, last⟩, first, read⟩ := bind_eq_ok (Option.some.inj read)
    have shorter := rowCount_shortens first
    rw [List.length_tail] at shorter
    cases read
    omega
  · cases read

def clauses (ts : List Token) : Attempt (List Clause × List Token) :=
  match read : clause? ts with
  | none => .ok ([], ts)
  | some (.error r) => .error r
  | some (.ok (c, rest)) => do
    have := clause?_shortens read
    let (cs, rest) ← clauses rest
    return (c :: cs, rest)
termination_by ts.length

/-- A clause takes the place of an earlier one of its sort. -/
def Clause.put (q : Query) : Clause → Query
  | .selection s => { q with selection := some s }
  | .order o => { q with order := some o }
  | .limit n => { q with limit := some n }

end BoxScore.Reading
