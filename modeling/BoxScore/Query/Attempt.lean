import BoxScore.Query
import BoxScore.Token

/- Reading phrases from a list of tokens. A phrase is told by its first token; where no
   phrase fits, the tokens from there on are handed back with what was expected. -/
namespace BoxScore.Reading

structure Refusal where
  expected : String
  rest : List Token
  deriving DecidableEq, Repr

/-- A phrase is read together with the tokens behind it. -/
abbrev Attempt := Except Refusal

def refuse {α : Type} (expected : String) (rest : List Token) : Attempt α :=
  .error ⟨expected, rest⟩

/-- The kind of the first token; past the last token is the end of input. -/
def headKind : List Token → Token.Kind
  | [] => .eof
  | t :: _ => t.kind

def take (kind : Token.Kind) (expected : String) : List Token → Attempt (Token × List Token)
  | [] => refuse expected []
  | t :: rest => if t.kind = kind then .ok (t, rest) else refuse expected (t :: rest)

theorem bind_eq_ok {ε α β : Type} {x : Except ε α} {f : α → Except ε β} {b : β}
    (read : x >>= f = .ok b) : ∃ a, x = .ok a ∧ f a = .ok b := by
  cases x with
  | error r => cases read
  | ok a => exact ⟨a, rfl, read⟩

theorem take_shortens {kind : Token.Kind} {expected : String} {ts rest : List Token} {t : Token}
    (read : take kind expected ts = .ok (t, rest)) : rest.length < ts.length := by
  cases ts with
  | nil => cases read
  | cons u ts =>
    simp only [take] at read
    split at read <;> cases read
    simp

end BoxScore.Reading
