import BoxScore.Decimal.Reading
import BoxScore.Query.Attempt

/- Expressions: an operand of one token, or a comparison of two operands. -/
namespace BoxScore.Reading

def splitField (text : String) : Option (String × String) :=
  let cs := text.toList
  match cs.dropWhile (· ≠ '.') with
  | [] => none
  | _ :: rest => some (String.ofList (cs.takeWhile (· ≠ '.')), String.ofList rest)

/-- A number with a point is a decimal, one without has to fit 64 bits. The error is
    what was expected in its place. -/
def numberValue (text : String) : Except String Value :=
  if text.toList.contains '.' then
    match Decimal.read text with
    | some x => .ok (.float x)
    | none => .error "decimal number"
  else
    match Text.readInt64 text with
    | some n => .ok (.int n)
    | none => .error "integer within 64-bit range"

def tokenExpr (t : Token) : Except String Expr :=
  match t.kind with
  | .fieldAccess =>
    match splitField t.text with
    | some (owner, name) => .ok (.field owner name)
    | none => .error "field access"
  | .number => (numberValue t.text).map (.literal · .number)
  | .string => .ok (.literal (.string t.text) .string)
  | .canonicalName => .ok (.literal (.string t.text) .canonicalName)
  | .date => .ok (.literal (.string t.text) .date)
  | .keyword .trueWord => .ok (.literal (.bool true) .boolean)
  | .keyword .falseWord => .ok (.literal (.bool false) .boolean)
  | .keyword .gameDate | .keyword .season | .identifier => .ok (.name t.text)
  | _ => .error "expression"

def operand : List Token → Attempt (Expr × List Token)
  | [] => refuse "expression" []
  | t :: rest =>
    match tokenExpr t with
    | .ok e => .ok (e, rest)
    | .error expected => refuse expected (t :: rest)

def expression (ts : List Token) : Attempt (Expr × List Token) := do
  let (left, rest) ← operand ts
  match headKind rest with
  | .comparison op =>
    let (right, rest) ← operand rest.tail
    return (.compare left op right, rest)
  | _ => return (left, rest)

theorem operand_shortens {ts rest : List Token} {e : Expr} (read : operand ts = .ok (e, rest)) :
    rest.length < ts.length := by
  cases ts with
  | nil => cases read
  | cons t ts =>
    simp only [operand] at read
    split at read <;> cases read
    simp

theorem expression_shortens {ts rest : List Token} {e : Expr}
    (read : expression ts = .ok (e, rest)) : rest.length < ts.length := by
  obtain ⟨⟨left, middle⟩, first, read⟩ := bind_eq_ok read
  have shorter := operand_shortens first
  simp only at read
  split at read
  · obtain ⟨⟨right, last⟩, second, read⟩ := bind_eq_ok read
    have shorter' := operand_shortens second
    rw [List.length_tail] at shorter'
    cases read
    simp only
    omega
  · cases read
    exact shorter

end BoxScore.Reading
