import BoxScore.Proofs.Scanning
import BoxScore.Query.Reading

/- Texts that write the same tokens with other layout between them. Layout is any mix of
   blanks, line feeds and comments; where some stands between any two tokens, scanning
   finds the tokens again. -/
namespace BoxScore.Token

/-- A comment of a layout has its line feed with it. -/
inductive IsLayout : List Char → Prop where
  | nil : IsLayout []
  | blank {c : Char} {cs : List Char} (blank : isBlank c) (more : IsLayout cs) :
      IsLayout (c :: cs)
  | newline {cs : List Char} (more : IsLayout cs) : IsLayout ('\n' :: cs)
  | comment {body cs : List Char} (line : '\n' ∉ body) (more : IsLayout cs) :
      IsLayout ('#' :: body ++ '\n' :: cs)

/-- The tokens are written out in order, with some layout between any two neighbours. -/
inductive Spaced : List Token → List Char → Prop where
  | none : Spaced [] []
  | last (t : Token) : Spaced [t] (t.kind.written t.text)
  | next (t : Token) {u : Token} {ts : List Token} {gap cs : List Char} (layout : IsLayout gap)
      (apart : gap ≠ []) (more : Spaced (u :: ts) cs) :
      Spaced (t :: u :: ts) (t.kind.written t.text ++ gap ++ cs)

theorem Spaced.snoc {ts : List Token} {cs gap : List Char} (spaced : Spaced ts cs)
    (some : ts ≠ []) (layout : IsLayout gap) (apart : gap ≠ []) (u : Token) :
    Spaced (ts ++ [u]) (cs ++ gap ++ u.kind.written u.text) := by
  induction spaced with
  | none => contradiction
  | last t => exact .next t layout apart (.last u)
  | next t first between _ ih =>
    have more := Spaced.next t first between (ih (by simp))
    rw [← List.append_assoc, ← List.append_assoc] at more
    exact more

/-- There may be layout in front of the first token and behind the last one, too. -/
def Respaced (ts : List Token) (text : List Char) : Prop :=
  ∃ lead cs trail, IsLayout lead ∧ Spaced ts cs ∧ IsLayout trail ∧ text = lead ++ cs ++ trail

def content (t : Token) : Kind × String := (t.kind, t.text)

def contents (tokens : List Token) : List (Kind × String) :=
  (TokenStream.words tokens).map content

def opensLayout (c : Char) : Bool := isBlank c || c = '\n' || c = '#'

theorem layout_head {cs : List Char} (layout : IsLayout cs) (nonempty : cs ≠ []) :
    ∃ c rest, cs = c :: rest ∧ opensLayout c := by
  cases layout with
  | nil => exact absurd rfl nonempty
  | blank blank more => exact ⟨_, _, rfl, by simp [opensLayout, blank]⟩
  | newline more => exact ⟨_, _, rfl, by decide⟩
  | comment line more => exact ⟨_, _, rfl, by decide⟩

/- Layout and quotes are no part of a lexeme that stands for itself. -/

theorem name_clear {c : Char} (inName : isNameChar c) : opensLayout c = false ∧ c ≠ '"' := by
  have other : ∀ d : Char, isNameChar d = false → c ≠ d := by
    intro d none same
    rw [same, none] at inName
    cases inName
  refine ⟨?_, other '"' (by decide)⟩
  simp [opensLayout, isBlank, other ' ' (by decide), other '\t' (by decide),
    other '\r' (by decide), other '\n' (by decide), other '#' (by decide)]

theorem digit_clear {c : Char} (digit : c.isDigit) : opensLayout c = false ∧ c ≠ '"' :=
  name_clear (by simp [isNameChar, Char.isAlphanum, digit])

theorem admitted_clear {kind : Kind} {cs : List Char} (plain : kind ≠ .string)
    (word : kind ≠ .newline) (admitted : kind.Admits cs) :
    ∀ c ∈ cs, opensLayout c = false ∧ c ≠ '"' := by
  have point : opensLayout '.' = false ∧ '.' ≠ '"' := by decide
  cases kind with
  | keyword reserved =>
    subst admitted
    exact fun c member => name_clear (isNameChar_of_isName (keyword_isName reserved) c member)
  | comparison op =>
    subst admitted
    have clear : op.symbol.toList.all fun c => !opensLayout c && c ≠ '"' := by cases op <;> decide
    simpa using clear
  | punctuation mark =>
    subst admitted
    have clear : mark.symbol.toList.all fun c => !opensLayout c && c ≠ '"' := by
      cases mark <;> decide
    simpa using clear
  | number =>
    intro c member
    rcases admitted with digits | ⟨whole, part, rfl, first, second⟩
    · exact digit_clear (digits.2 c member)
    · simp only [List.mem_append, List.mem_cons] at member
      rcases member with inWhole | rfl | inPart
      · exact digit_clear (first.2 c inWhole)
      · exact point
      · exact digit_clear (second.2 c inPart)
  | string => exact absurd rfl plain
  | canonicalName => exact fun c member => name_clear (isNameChar_of_isName admitted c member)
  | identifier => exact fun c member => name_clear (isNameChar_of_isName admitted c member)
  | date =>
    intro c member
    rcases (dateShape_parts admitted).2.2.2 c member with digit | rfl
    · exact digit_clear digit
    · decide
  | fieldAccess =>
    intro c member
    obtain ⟨owner, name, rfl, first, second⟩ := admitted
    simp only [List.mem_append, List.mem_cons] at member
    rcases member with inOwner | rfl | inName
    · exact name_clear (isNameChar_of_isName first c inOwner)
    · exact point
    · exact name_clear (isNameChar_of_isName second c inName)
  | newline => exact absurd rfl word
  | eof =>
    subst admitted
    simp

theorem written_ne_nil {kind : Kind} {text : String} (lexeme : IsLexeme kind text) :
    kind.written text ≠ [] := by
  intro empty
  have stretch : Stretch [] ⟨kind.written text, .token kind text⟩ := .token lexeme (by simp)
  obtain ⟨found, first, _⟩ := stretch_reaches stretch
  simp [empty, first?] at first

theorem written_head {kind : Kind} {text : String} (lexeme : IsLexeme kind text)
    (word : kind ≠ .newline) : ∃ c cs, kind.written text = c :: cs ∧ opensLayout c = false ∧
      (c = '"' → kind = .string) := by
  by_cases string : kind = .string
  · exact ⟨'"', text.toList ++ ['"'], by simp [Kind.written, string], by decide, fun _ => string⟩
  · cases written : kind.written text with
    | nil => exact absurd written (written_ne_nil lexeme)
    | cons c cs =>
      have member : c ∈ text.toList := by
        simp only [Kind.written, string, ↓reduceIte] at written
        simp [written]
      have clear := admitted_clear string word lexeme.admitted c member
      exact ⟨c, cs, rfl, clear.1, fun quote => absurd quote clear.2⟩

theorem string_closed {body text more : List Char} {c : Char} (closed : '"' ∉ body) :
    '"' :: body ++ ['"'] ≠ '"' :: text ++ ['"'] ++ c :: more := by
  intro same
  have ends : body ++ ['"'] = text ++ '"' :: c :: more := by simpa using same
  have inner := congrArg List.dropLast ends
  rw [List.dropLast_concat, List.dropLast_append_of_ne_nil (by simp), List.dropLast_cons_cons]
    at inner
  exact closed (by simp [inner])

/-- No stretch goes on from a lexeme into the layout behind it. -/
theorem stretch_stops {kind : Kind} {text : String} {rest more : List Char} {span : Span} {c : Char}
    (lexeme : IsLexeme kind text) (word : kind ≠ .newline) (layout : opensLayout c)
    (stretch : Stretch rest span) : span.chars ≠ kind.written text ++ c :: more := by
  obtain ⟨d, ds, written, clear, quoted⟩ := written_head lexeme word
  intro same
  cases stretch with
  | blank blank => simp [written] at same
  | comment line stop =>
    simp only [written, List.cons_append, List.cons.injEq] at same
    rw [← same.1] at clear
    contradiction
  | @token other inner otherLexeme alone =>
    by_cases string : other = .string
    · subst string
      have quote : '"' = d := by
        rw [written] at same
        simp only [Kind.written, ↓reduceIte, List.cons_append, List.cons.injEq] at same
        exact same.1
      have also := quoted quote.symm
      subst also
      exact string_closed otherLexeme.admitted (by simpa [Kind.written] using same)
    have part : inner.toList = kind.written text ++ c :: more := by
      simpa [Kind.written, string] using same
    by_cases feed : other = .newline
    · subst feed
      have single : inner.toList = ['\n'] := otherLexeme.admitted
      simp [single, written] at part
    · have inside := (admitted_clear string feed otherLexeme.admitted c (by simp [part])).1
      rw [inside] at layout
      cases layout

theorem longer_part {cs ds es fs : List Char} (same : cs ++ ds = es ++ fs)
    (longer : es.length < cs.length) : ∃ c more, cs = es ++ c :: more ∧ c ∈ fs.head? := by
  rcases List.append_eq_append_iff.mp same with ⟨part, rfl, _⟩ | ⟨part, rfl, rfl⟩
  · rw [List.length_append] at longer
    omega
  · cases part with
    | nil => simp at longer
    | cons c more => exact ⟨c, more, rfl, rfl⟩

theorem first?_apart {kind : Kind} {text : String} {rest : List Char}
    (lexeme : IsLexeme kind text) (word : kind ≠ .newline)
    (apart : ∀ c ∈ rest.head?, opensLayout c) :
    first? (kind.written text ++ rest) = some ⟨kind.written text, .token kind text⟩ := by
  have alone : kind = .date → ∀ c ∈ rest.head?, isNameChar c = false := by
    intro _ c member
    cases inName : isNameChar c with
    | false => rfl
    | true => exact absurd (apart c member) (by simp [name_clear inName])
  obtain ⟨found, first, equal | longer⟩ := stretch_reaches (.token lexeme alone)
  · rw [first, equal]
  · -- A longer stretch would go on with the first character of the layout.
    obtain ⟨behind, split, stretch⟩ := first?_stretch first
    obtain ⟨c, more, goesOn, next⟩ := longer_part split.symm longer
    exact absurd goesOn (stretch_stops lexeme word (apart c next) stretch)

/- The whole text. -/

def Lexeme.contents : Lexeme → List (Kind × String)
  | .token kind text => if kind = .newline then [] else [(kind, text)]
  | _ => []

def Yields (cs : List Char) (found : List (Kind × String)) : Prop :=
  ∀ before, ∃ tokens, Tiled before cs tokens ∧ contents tokens = found

theorem contents_append (ts us : List Token) :
    contents (ts ++ us) = contents ts ++ contents us := by
  simp [contents, TokenStream.words]

theorem contents_token? (span : Span) (p : Position) :
    contents (span.token? p).toList = span.lexeme.contents := by
  obtain ⟨chars, lexeme⟩ := span
  cases lexeme with
  | token kind text =>
    by_cases feed : kind = .newline
    · simp [Span.token?, contents, TokenStream.words, Lexeme.contents, feed]
    · simp [Span.token?, contents, TokenStream.words, Lexeme.contents, feed, content]
  | _ => rfl

theorem yields_stretch (span : Span) {rest : List Char} {found : List (Kind × String)}
    (first : first? (span.chars ++ rest) = some span) (more : Yields rest found) :
    Yields (span.chars ++ rest) (span.lexeme.contents ++ found) := by
  intro before
  obtain ⟨stretch, longest⟩ := first?_eq_some_iff.mp first
  obtain ⟨tokens, tiled, same⟩ := more (before ++ span.chars)
  refine ⟨_, .next stretch longest tiled, ?_⟩
  rw [contents_append, contents_token?, same]

theorem yields_newline {rest : List Char} {found : List (Kind × String)}
    (more : Yields rest found) : Yields ('\n' :: rest) found :=
  yields_stretch (.ofToken .newline ['\n']) (by simp [first?, isBlank, Span.ofToken]) more

theorem yields_layout {gap rest : List Char} {found : List (Kind × String)}
    (layout : IsLayout gap) (more : Yields rest found) : Yields (gap ++ rest) found := by
  induction layout with
  | nil => exact more
  | @blank c cs blank _ ih =>
    exact yields_stretch ⟨[c], .blank⟩ (by simp [first?, blank]) ih
  | newline _ ih => exact yields_newline ih
  | @comment body cs line _ ih =>
    have first : first? ('#' :: body ++ '\n' :: (cs ++ rest)) = some ⟨'#' :: body, .comment⟩ :=
      first?_comment line (by simp)
    have yields := yields_stretch ⟨'#' :: body, .comment⟩ first (yields_newline ih)
    simpa [Lexeme.contents] using yields

theorem yields_token {t : Token} {rest : List Char} {found : List (Kind × String)}
    (lexeme : IsLexeme t.kind t.text) (word : t.kind ≠ .newline)
    (apart : ∀ c ∈ rest.head?, opensLayout c) (more : Yields rest found) :
    Yields (t.kind.written t.text ++ rest) (t.content :: found) := by
  have yields := yields_stretch ⟨t.kind.written t.text, .token t.kind t.text⟩
    (first?_apart lexeme word apart) more
  simpa [Lexeme.contents, word, content] using yields

theorem layout_apart {gap rest : List Char} (layout : IsLayout gap)
    (some : gap ≠ [] ∨ rest = []) : ∀ c ∈ (gap ++ rest).head?, opensLayout c := by
  cases gap with
  | nil =>
    rcases some with none | rfl
    · exact absurd rfl none
    · simp
  | cons d gap =>
    obtain ⟨c, more, same, opens⟩ := layout_head layout (by simp)
    cases same
    simpa using opens

theorem yields_spaced {ts : List Token} {cs trail : List Char} (spaced : Spaced ts cs)
    (layout : IsLayout trail) (lexemes : ∀ t ∈ ts, IsLexeme t.kind t.text ∧ t.kind ≠ .newline) :
    Yields (cs ++ trail) (ts.map content ++ [(.eof, "")]) := by
  have finish : Yields trail [(.eof, "")] := by
    have empty : Yields [] [(.eof, "")] := fun before => ⟨_, .finish, rfl⟩
    simpa using yields_layout layout empty
  induction spaced with
  | none => exact finish
  | last t =>
    obtain ⟨lexeme, word⟩ := lexemes t (by simp)
    have apart := layout_apart layout (Or.inr rfl)
    exact yields_token lexeme word (by simpa using apart) finish
  | @next t u ts gap cs gapLayout apart more ih =>
    obtain ⟨lexeme, word⟩ := lexemes t (by simp)
    have later := yields_layout gapLayout (ih fun v member => lexemes v (by simp [member]))
    rw [List.append_assoc, List.append_assoc]
    exact yields_token lexeme word (layout_apart gapLayout (Or.inl apart)) later

theorem tiled_lexemes {before rest : List Char} {tokens : List Token}
    (tiled : Tiled before rest tokens) :
    ∀ t ∈ tokens, t.kind ≠ .eof → IsLexeme t.kind t.text := by
  induction tiled with
  | finish =>
    intro t member notEnd
    rw [List.mem_singleton] at member
    exact absurd (congrArg Token.kind member) notEnd
  | @next before rest span tokens stretch longest more ih =>
    intro t member notEnd
    rcases List.mem_append.mp member with own | later
    · cases stretch with
      | blank blank => simp [Span.token?] at own
      | comment line stop => simp [Span.token?] at own
      | token lexeme alone =>
        simp only [Span.token?, Option.toList_some, List.mem_singleton] at own
        rw [own]
        exact lexeme
    · exact ih t later notEnd

end BoxScore.Token
