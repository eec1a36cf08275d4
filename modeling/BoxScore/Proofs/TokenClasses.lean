import BoxScore.Token.Scan
import Mathlib.Data.List.TakeWhile

/- The texts that scanned tokens have. Each kind of token admits one class of texts, and
   the end of input is the last token and no other. -/
namespace BoxScore.Token

def IsName (cs : List Char) : Prop :=
  ∃ c rest, cs = c :: rest ∧ c.isAlpha ∧ ∀ d ∈ rest, isNameChar d

def IsDigits (cs : List Char) : Prop := cs ≠ [] ∧ ∀ c ∈ cs, c.isDigit

def isWord (text : String) : Bool := text.toList.all isNameChar

/-- The class of texts of a kind. The text of a string is what its quotes enclose. -/
def Kind.Admits : Kind → List Char → Prop
  | .keyword word, cs => cs = word.spelling.toList
  | .comparison op, cs => cs = op.symbol.toList
  | .punctuation mark, cs => cs = mark.symbol.toList
  | .number, cs =>
    IsDigits cs ∨ ∃ whole part, cs = whole ++ '.' :: part ∧ IsDigits whole ∧ IsDigits part
  | .string, cs => '"' ∉ cs
  | .canonicalName, cs | .identifier, cs => IsName cs
  | .date, cs => isDateShape cs
  | .fieldAccess, cs => ∃ owner name, cs = owner ++ '.' :: name ∧ IsName owner ∧ IsName name
  | .newline, cs => cs = ['\n']
  | .eof, cs => cs = []

def Span.Admitted (span : Span) : Prop :=
  ∀ kind text, span.lexeme = .token kind text → kind.Admits text.toList ∧ kind ≠ .eof

theorem ofToken_admitted {kind : Kind} {cs : List Char} (admits : kind.Admits cs)
    (notEnd : kind ≠ .eof) : (Span.ofToken kind cs).Admitted := by
  intro other text same
  simp only [Span.ofToken, Lexeme.token.injEq] at same
  obtain ⟨rfl, rfl⟩ := same
  exact ⟨by simpa using admits, notEnd⟩

theorem isNameChar_of_isAlpha {c : Char} (letter : c.isAlpha) : isNameChar c := by
  simp [isNameChar, Char.isAlphanum, letter]

theorem takeWhile_isName {c : Char} (cs : List Char) (letter : c.isAlpha) :
    IsName ((c :: cs).takeWhile isNameChar) := by
  refine ⟨c, cs.takeWhile isNameChar, ?_, letter, ?_⟩
  · simp [isNameChar_of_isAlpha letter]
  · intro d member
    exact List.mem_takeWhile_imp member

theorem takeWhile_isDigits {c : Char} (cs : List Char) (digit : c.isDigit) :
    IsDigits ((c :: cs).takeWhile Char.isDigit) := by
  refine ⟨by simp [digit], ?_⟩
  intro d member
  exact List.mem_takeWhile_imp member

theorem ofSpelling?_spelling {text : String} {word : Keyword}
    (found : Keyword.ofSpelling? text = some word) : word.spelling = text := by
  simpa using List.find?_some found

theorem ofWord_admits {cs : List Char} (name : IsName cs) :
    (Kind.ofWord (String.ofList cs)).Admits cs ∧ Kind.ofWord (String.ofList cs) ≠ .eof := by
  unfold Kind.ofWord
  split
  · rename_i word found
    have spelled := ofSpelling?_spelling found
    simp [Kind.Admits, spelled]
  · simp only [String.toList_ofList]
    split
    · rename_i shape
      exact ⟨shape, by simp⟩
    · split
      · exact ⟨name, by simp⟩
      · exact ⟨name, by simp⟩

theorem word_admitted {c : Char} (cs : List Char) (letter : c.isAlpha) :
    (word (c :: cs)).Admitted := by
  have name := takeWhile_isName cs letter
  have plain := ofWord_admits name
  unfold word
  split
  · rename_i d rest after
    split
    · rename_i second
      refine ofToken_admitted ?_ (by simp)
      exact ⟨_, d :: rest.takeWhile isNameChar, rfl, name, d, _, rfl, second,
        fun _ member => List.mem_takeWhile_imp member⟩
    · exact ofToken_admitted plain.1 plain.2
  · exact ofToken_admitted plain.1 plain.2

theorem number_admitted {c : Char} (cs : List Char) (digit : c.isDigit) :
    (number (c :: cs)).Admitted := by
  have whole := takeWhile_isDigits cs digit
  unfold number
  split
  · rename_i d rest after
    split
    · rename_i second
      refine ofToken_admitted (Or.inr ⟨_, d :: rest.takeWhile Char.isDigit, rfl, whole, ?_⟩)
        (by simp)
      refine ⟨by simp, ?_⟩
      intro e member
      rcases List.mem_cons.mp member with first | later
      · exact first ▸ second
      · exact List.mem_takeWhile_imp later
    · exact ofToken_admitted (Or.inl whole) (by simp)
  · exact ofToken_admitted (Or.inl whole) (by simp)

theorem numeral_admitted {c : Char} (cs : List Char) (digit : c.isDigit) :
    (numeral (c :: cs)).Admitted := by
  unfold numeral
  split
  · rename_i date
    simp only [startsWithDate, Bool.and_eq_true] at date
    exact ofToken_admitted date.1 (by simp)
  · exact number_admitted cs digit

theorem comparison_admitted {cs : List Char} {op : Comparison}
    (found : Comparison.ofSymbol? (String.ofList cs) = some op) :
    (Span.ofToken (.comparison op) cs).Admitted := by
  have same : op.symbol = String.ofList cs := by simpa using List.find?_some found
  exact ofToken_admitted (by simp [Kind.Admits, same]) (by simp)

theorem punctuation_admitted {cs : List Char} {mark : Punctuation}
    (found : Punctuation.ofSymbol? (String.ofList cs) = some mark) :
    (Span.ofToken (.punctuation mark) cs).Admitted := by
  have same : mark.symbol = String.ofList cs := by simpa using List.find?_some found
  exact ofToken_admitted (by simp [Kind.Admits, same]) (by simp)

theorem symbol?_admitted {cs : List Char} {span : Span} (found : symbol? cs = some span) :
    span.Admitted := by
  unfold symbol? at found
  simp only at found
  split at found
  · rename_i op two
    cases found
    exact comparison_admitted two
  · split at found
    · rename_i op one
      cases found
      exact comparison_admitted one
    · obtain ⟨mark, one, rfl⟩ := Option.map_eq_some_iff.mp found
      exact punctuation_admitted one

theorem quoted?_admitted {body : List Char} {span : Span} (found : quoted? body = some span) :
    span.Admitted := by
  unfold quoted? at found
  simp only at found
  split at found
  · cases found
  · cases found
    intro kind text same
    simp only [Lexeme.token.injEq] at same
    obtain ⟨rfl, rfl⟩ := same
    refine ⟨?_, by simp⟩
    simp only [Kind.Admits, String.toList_ofList]
    intro member
    simpa using List.mem_takeWhile_imp member

theorem first?_admitted {cs : List Char} {span : Span} (found : first? cs = some span) :
    span.Admitted := by
  cases cs with
  | nil => simp [first?] at found
  | cons c cs =>
    simp only [first?] at found
    split at found
    · cases found; simp [Span.Admitted]
    split at found
    · rename_i feed
      cases found
      exact ofToken_admitted (by simp [Kind.Admits, feed]) (by simp)
    split at found
    · cases found; simp [Span.Admitted]
    split at found
    · exact quoted?_admitted found
    split at found
    · cases found; exact word_admitted cs ‹_›
    split at found
    · cases found; exact numeral_admitted cs ‹_›
    · exact symbol?_admitted found

theorem cut_admitted (cs : List Char) : ∀ span ∈ (cut cs).1, span.Admitted := by
  fun_induction cut cs with
  | case1 cs stuck => simp
  | case2 cs span found shorter spans rest more ih =>
    intro other member
    rcases List.mem_cons.mp member with first | later
    · subst other
      exact first?_admitted found
    · exact ih other (by rw [more]; exact later)

theorem place_tokens (spans : List Span) (admitted : ∀ span ∈ spans, span.Admitted)
    (p : Position) : ∃ front last, place p spans = front ++ [⟨.eof, "", last⟩] ∧
      ∀ t ∈ front, t.kind.Admits t.text.toList ∧ t.kind ≠ .eof := by
  induction spans generalizing p with
  | nil => exact ⟨[], p, rfl, by simp⟩
  | cons span spans ih =>
    obtain ⟨front, last, tail, fits⟩ :=
      ih (fun s member => admitted s (by simp [member])) (p.after span.chars)
    refine ⟨(span.token? p).toList ++ front, last, by simp [place, tail], ?_⟩
    intro t member
    rcases List.mem_append.mp member with first | later
    · have own := admitted span (by simp)
      unfold Span.token? at first
      split at first
      · rename_i kind text same
        simp only [Option.toList_some, List.mem_singleton] at first
        subst first
        exact own kind text same
      · simp at first
    · exact fits t later

theorem scan_tokens {source : String} {tokens : List Token} (scanned : scan source = .ok tokens) :
    ∃ front last, tokens = front ++ [⟨.eof, "", last⟩] ∧
      ∀ t ∈ front, t.kind.Admits t.text.toList ∧ t.kind ≠ .eof := by
  unfold scan at scanned
  simp only at scanned
  split at scanned
  · cases scanned
    exact place_tokens _ (cut_admitted _) _
  · cases scanned

end BoxScore.Token
