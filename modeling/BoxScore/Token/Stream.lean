import BoxScore.Token

/- Tokens with a place among them from which they are read on. Line feeds separate nothing
   and are passed over; the end of input comes last and is never passed. -/
namespace BoxScore

/-- Tokens of which the last is the end of input, and the index of the next one to be read. -/
structure TokenStream where
  tokens : List Token
  cursor : Nat
  ended : tokens.getLast?.map Token.kind = some .eof
  inside : cursor < tokens.length
  deriving DecidableEq, Repr

namespace TokenStream

def words (tokens : List Token) : List Token := tokens.filter (·.kind ≠ .newline)

/-- Tokens that do not end with the end of input are given one, as many columns behind
    the last token as its text has bytes. A column is a word of 64 bits. -/
def closed (tokens : List Token) : List Token :=
  match tokens.getLast? with
  | none => [⟨.eof, "", .start⟩]
  | some last =>
    if last.kind = .eof then tokens
    else
      let p := last.position
      let column := (p.column + last.text.utf8ByteSize) % Nat.pow 2 64
      tokens ++ [⟨.eof, "", ⟨p.line, column⟩⟩]

theorem closed_ended (tokens : List Token) :
    (closed tokens).getLast?.map Token.kind = some .eof := by
  unfold closed
  split
  · rfl
  · rename_i last found
    split
    · rename_i finish
      rw [found, Option.map_some, finish]
    · simp

theorem length_pos_of_ended {tokens : List Token}
    (ended : tokens.getLast?.map Token.kind = some .eof) : 0 < tokens.length := by
  cases tokens with
  | nil => cases ended
  | cons t tokens => exact Nat.succ_pos _

def ofTokens (tokens : List Token) : TokenStream :=
  ⟨closed tokens, 0, closed_ended tokens, length_pos_of_ended (closed_ended tokens)⟩

def last (s : TokenStream) : Token :=
  s.tokens.getLast (List.length_pos_iff.mp (length_pos_of_ended s.ended))

def ahead (s : TokenStream) : List Token := words (s.tokens.drop s.cursor).dropLast

theorem ahead_ofTokens (tokens : List Token) :
    (ofTokens tokens).ahead = words (closed tokens).dropLast := rfl

theorem last_kind (s : TokenStream) : s.last.kind = .eof := by
  obtain ⟨last, found, finish⟩ := Option.map_eq_some_iff.mp s.ended
  rw [TokenStream.last, (List.getLast_eq_iff_getLast?_eq_some _).mpr found, finish]

/-- The end of input comes last, so line feeds alone never use up the tokens. -/
theorem word_inside (s : TokenStream) :
    s.cursor + (s.tokens.drop s.cursor).findIdx (·.kind ≠ .newline) < s.tokens.length := by
  obtain ⟨last, found, finish⟩ := Option.map_eq_some_iff.mp s.ended
  have before : ¬ s.tokens.length ≤ s.cursor := Nat.not_le.mpr s.inside
  have member : last ∈ s.tokens.drop s.cursor :=
    List.mem_of_getLast? (by rw [List.getLast?_drop, if_neg before, found])
  have within : (s.tokens.drop s.cursor).findIdx (·.kind ≠ .newline) <
      (s.tokens.drop s.cursor).length :=
    List.findIdx_lt_length_of_exists ⟨last, member, by simp [finish]⟩
  rw [List.length_drop] at within
  omega

def atWord (s : TokenStream) : TokenStream :=
  { s with
    cursor := s.cursor + (s.tokens.drop s.cursor).findIdx (·.kind ≠ .newline)
    inside := s.word_inside }

def next (s : TokenStream) : Token := s.atWord.tokens.get ⟨s.atWord.cursor, s.atWord.inside⟩

/-- The stream behind its next token; the last token stays where it is. -/
def advance (s : TokenStream) : TokenStream :=
  if more : s.atWord.cursor + 1 < s.atWord.tokens.length then
    { s.atWord with cursor := s.atWord.cursor + 1, inside := more }
  else s.atWord

def pass : Nat → TokenStream → TokenStream
  | 0, s => s
  | count + 1, s => pass count s.advance

def upTo (s : TokenStream) (rest : List Token) : TokenStream :=
  (s.pass (s.ahead.length - rest.length)).atWord

end TokenStream
end BoxScore
