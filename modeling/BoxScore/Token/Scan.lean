import BoxScore.Fault
import BoxScore.Token

/- A source text is cut into stretches from left to right. Each stretch is a blank, a
   comment or the lexeme of one token, and the cut ends at the first character that
   starts none of them. No character is lost: the stretches and the uncut rest are the
   source again. -/
namespace BoxScore.Token

inductive Lexeme where
  | blank
  | comment
  | token (kind : Kind) (text : String)
  deriving DecidableEq, Repr

structure Span where
  chars : List Char
  lexeme : Lexeme
  deriving DecidableEq, Repr

/-- Line feeds are no blanks: they are tokens. -/
def isBlank (c : Char) : Bool := c = ' ' || c = '\t' || c = '\r'

def isNameChar (c : Char) : Bool := c.isAlphanum || c = '_'

def Span.ofToken (kind : Kind) (chars : List Char) : Span :=
  ⟨chars, .token kind (String.ofList chars)⟩

def quoted? (body : List Char) : Option Span :=
  let inner := body.takeWhile (· ≠ '"')
  match body.dropWhile (· ≠ '"') with
  | [] => none
  | _ :: _ => some ⟨'"' :: inner ++ ['"'], .token .string (String.ofList inner)⟩

def word (cs : List Char) : Span :=
  let name := cs.takeWhile isNameChar
  match cs.dropWhile isNameChar with
  | '.' :: d :: rest =>
    if d.isAlpha then .ofToken .fieldAccess (name ++ '.' :: d :: rest.takeWhile isNameChar)
    else .ofToken (.ofWord (String.ofList name)) name
  | _ => .ofToken (.ofWord (String.ofList name)) name

def number (cs : List Char) : Span :=
  let whole := cs.takeWhile Char.isDigit
  match cs.dropWhile Char.isDigit with
  | '.' :: d :: rest =>
    if d.isDigit then .ofToken .number (whole ++ '.' :: d :: rest.takeWhile Char.isDigit)
    else .ofToken .number whole
  | _ => .ofToken .number whole

/-- A date is only a date if no letter, digit or underscore follows it. -/
def startsWithDate (cs : List Char) : Bool :=
  isDateShape (cs.take 10) && !(cs.drop 10).head?.any isNameChar

def numeral (cs : List Char) : Span :=
  if startsWithDate cs then .ofToken .date (cs.take 10) else number cs

/-- Comparisons of two characters are tried before those of one. -/
def symbol? (cs : List Char) : Option Span :=
  let two := cs.take 2
  let one := cs.take 1
  match Comparison.ofSymbol? (String.ofList two) with
  | some op => some (.ofToken (.comparison op) two)
  | none =>
    match Comparison.ofSymbol? (String.ofList one) with
    | some op => some (.ofToken (.comparison op) one)
    | none => (Punctuation.ofSymbol? (String.ofList one)).map fun mark =>
        .ofToken (.punctuation mark) one

def first? : List Char → Option Span
  | [] => none
  | c :: cs =>
    if isBlank c then some ⟨[c], .blank⟩
    else if c = '\n' then some (.ofToken .newline [c])
    else if c = '#' then some ⟨c :: cs.takeWhile (· ≠ '\n'), .comment⟩
    else if c = '"' then quoted? cs
    else if c.isAlpha then some (word (c :: cs))
    else if c.isDigit then some (numeral (c :: cs))
    else symbol? (c :: cs)

theorem word_chars_ne_nil {c : Char} (cs : List Char) (letter : c.isAlpha) :
    (word (c :: cs)).chars ≠ [] := by
  have inName : isNameChar c := by simp [isNameChar, Char.isAlphanum, letter]
  unfold word
  split
  · split <;> simp [Span.ofToken, inName]
  · simp [Span.ofToken, inName]

theorem numeral_chars_ne_nil {c : Char} (cs : List Char) (digit : c.isDigit) :
    (numeral (c :: cs)).chars ≠ [] := by
  unfold numeral number
  split
  · simp [Span.ofToken]
  · split
    · split <;> simp [Span.ofToken, digit]
    · simp [Span.ofToken, digit]

theorem symbol?_chars_ne_nil {c : Char} {cs : List Char} {span : Span}
    (found : symbol? (c :: cs) = some span) : span.chars ≠ [] := by
  unfold symbol? at found
  simp only at found
  split at found
  · cases found; simp [Span.ofToken]
  · split at found
    · cases found; simp [Span.ofToken]
    · obtain ⟨mark, _, rfl⟩ := Option.map_eq_some_iff.mp found
      simp [Span.ofToken]

theorem first?_chars_ne_nil {cs : List Char} {span : Span} (found : first? cs = some span) :
    span.chars ≠ [] := by
  cases cs with
  | nil => simp [first?] at found
  | cons c cs =>
    simp only [first?] at found
    split at found
    · cases found; simp
    split at found
    · cases found; simp [Span.ofToken]
    split at found
    · cases found; simp
    split at found
    · unfold quoted? at found
      simp only at found
      split at found
      · cases found
      · cases found; simp
    split at found
    · cases found; exact word_chars_ne_nil cs ‹_›
    split at found
    · cases found; exact numeral_chars_ne_nil cs ‹_›
    · exact symbol?_chars_ne_nil found

theorem first?_shortens {cs : List Char} {span : Span} (found : first? cs = some span) :
    (cs.drop span.chars.length).length < cs.length := by
  have nonempty := List.length_pos_iff.mpr (first?_chars_ne_nil found)
  cases cs with
  | nil => simp [first?] at found
  | cons c cs => simp only [List.length_drop, List.length_cons]; omega

def cut (cs : List Char) : List Span × List Char :=
  match found : first? cs with
  | none => ([], cs)
  | some span =>
    have := first?_shortens found
    let (spans, rest) := cut (cs.drop span.chars.length)
    (span :: spans, rest)
termination_by cs.length
decreasing_by assumption

def Span.token? (span : Span) (p : Position) : Option Token :=
  match span.lexeme with
  | .token kind text => some ⟨kind, text, p⟩
  | _ => none

def place (p : Position) : List Span → List Token
  | [] => [⟨.eof, "", p⟩]
  | span :: spans => (span.token? p).toList ++ place (p.after span.chars) spans

/-- A text whose cut leaves something has no tokens; the character that starts the rest
    is at fault, and if it is a quote then the string is not closed. -/
def scan (source : String) : Except Fault (List Token) :=
  let (spans, rest) := cut source.toList
  match rest with
  | [] => .ok (place .start spans)
  | c :: _ =>
    let p := Position.start.after (spans.flatMap Span.chars)
    .error (if c = '"' then .unterminatedString p else .unexpectedCharacter c p)

end BoxScore.Token
