import BoxScore.Proofs.Scanning

/- The character that a fault of spelling points at. The text in front of it is scanned on
   its own as it is scanned in the source, although dates, numbers and field accesses look
   at what follows them, and nothing of the lexical grammar starts at the character. -/
namespace BoxScore.Token

/- Where nothing can be cut off. -/

theorem first?_eq_none_iff {cs : List Char} :
    first? cs = none ↔ ∀ span rest, Stretch rest span → span.chars ++ rest ≠ cs := by
  constructor
  · rintro stuck span rest stretch rfl
    obtain ⟨found, first, _⟩ := stretch_reaches stretch
    rw [stuck] at first
    cases first
  · intro nothing
    cases found : first? cs with
    | none => rfl
    | some span =>
      obtain ⟨rest, split, stretch⟩ := first?_stretch found
      exact absurd split.symm (nothing span rest stretch)

theorem no_quote_of_stuck {body : List Char} (stuck : first? ('"' :: body) = none) :
    '"' ∉ body := by
  intro member
  obtain ⟨inner, after, rfl, clear⟩ := List.eq_append_cons_of_mem member
  obtain ⟨found, first, _⟩ := string_reaches clear after
  rw [List.append_assoc, List.cons_append, List.singleton_append, stuck] at first
  cases first

theorem first?_dash (cs : List Char) : first? ('-' :: cs) = none := by
  have noComparison : ∀ tail, Comparison.ofSymbol? (String.ofList ('-' :: tail)) = none := by
    intro tail
    refine List.find?_eq_none.mpr fun op _ same => ?_
    have first := congrArg (·.toList.head?) (beq_iff_eq.mp same)
    simp only [String.toList_ofList, List.head?_cons] at first
    cases op <;> exact absurd first (by decide)
  have noMark : Punctuation.ofSymbol? (String.ofList ['-']) = none := by decide
  have reached : first? ('-' :: cs) = symbol? ('-' :: cs) := by simp [first?, isBlank]
  rw [reached, symbol?, List.take_succ_cons, List.take_succ_cons, List.take_zero]
  simp only [noComparison, noMark, Option.map_none]

theorem dateShape_dropWhile {cs : List Char} (shape : isDateShape cs) :
    ∃ tail, cs.dropWhile Char.isDigit = '-' :: tail := by
  obtain ⟨_, dash, _, chars⟩ := dateShape_parts shape
  cases dropped : cs.dropWhile Char.isDigit with
  | nil =>
    have digit := List.dropWhile_eq_nil_iff.mp dropped '-' dash
    exact absurd digit (by decide)
  | cons c tail =>
    have other : c.isDigit = false := head?_dropWhile cs c (by rw [dropped]; rfl)
    have member : c ∈ cs := List.dropWhile_subset _ (by rw [dropped]; exact List.mem_cons_self)
    rcases chars c member with digit | same
    · rw [other] at digit
      cases digit
    · exact ⟨tail, by rw [same]⟩

/-- What is cut off in front of a text that looks like a date is all of the date, or the
    digits in front of its first dash, and a dash starts nothing. -/
theorem cut_broken_date {cs rest behind : List Char} {span : Span} (shape : isDateShape cs)
    (found : first? (cs ++ rest) = some span) (split : cs ++ rest = span.chars ++ behind) :
    span.chars.length = cs.length ∨ first? behind = none := by
  obtain ⟨length, _, ⟨c, tail, same, digit⟩, _⟩ := dateShape_parts shape
  have numeral : first? (cs ++ rest) = some (numeral (cs ++ rest)) := by
    rw [same]
    exact first?_digit _ digit
  rw [numeral, Option.some.injEq] at found
  subst found
  unfold Token.numeral at split ⊢
  by_cases date : startsWithDate (cs ++ rest)
  · rw [if_pos date]
    left
    simp [Span.ofToken, length]
  · right
    rw [if_neg date] at split
    obtain ⟨tail, dash⟩ := dateShape_dropWhile shape
    have dropped : (cs ++ rest).dropWhile Char.isDigit = '-' :: (tail ++ rest) := by
      rw [List.dropWhile_append, dash]
      rfl
    rcases number_cases (cs ++ rest) with ⟨d, more, after, _⟩ | ⟨_, whole⟩
    · rw [dropped] at after
      cases after
    · rw [whole] at split
      have parts := List.takeWhile_append_dropWhile (p := Char.isDigit) (l := cs ++ rest)
      rw [dropped] at parts
      have same := List.append_cancel_left (parts.trans split)
      rw [← same]
      exact first?_dash _

/- Cutting a text off at a place where nothing starts. -/

theorem Stretch.shorten {more stuck : List Char} {span : Span}
    (stretch : Stretch (more ++ stuck) span) : Stretch more span := by
  have heads : ∀ c ∈ more.head?, c ∈ (more ++ stuck).head? := by
    intro c member
    cases more with
    | nil => cases member
    | cons d more => exact member
  cases stretch with
  | blank blank => exact .blank blank
  | comment line stop => exact .comment line fun c member => stop c (heads c member)
  | token lexeme alone =>
    exact .token lexeme fun date c member => alone date c (heads c member)

theorem Stretch.lengthen {behind : List Char} {span : Span} (stretch : Stretch behind span)
    (stuck : List Char) : Stretch (behind ++ stuck) span ∨ behind = [] ∧
      ((∃ body, span.chars = '#' :: body ∧ '\n' ∉ body) ∨ isDateShape span.chars) := by
  cases behind with
  | cons c behind =>
    left
    cases stretch with
    | blank blank => exact .blank blank
    | comment line stop => exact .comment line stop
    | token lexeme alone => exact .token lexeme alone
  | nil =>
    cases stretch with
    | blank blank => exact Or.inl (.blank blank)
    | comment line _ => exact Or.inr ⟨rfl, Or.inl ⟨_, rfl, line⟩⟩
    | @token kind text lexeme _ =>
      by_cases date : kind = .date
      · subst date
        exact Or.inr ⟨rfl, Or.inr lexeme.admitted⟩
      · exact Or.inl (.token lexeme fun same => absurd same date)

theorem comment_length_le {body stuck : List Char} {span : Span} (line : '\n' ∉ body)
    (found : first? ('#' :: body ++ stuck) = some span) :
    ('#' :: body).length ≤ span.chars.length := by
  have all : ∀ c ∈ body, decide (c ≠ '\n') = true := by
    intro c member
    simp only [decide_eq_true_eq]
    rintro rfl
    exact line member
  have reached : first? ('#' :: body ++ stuck) =
      some ⟨'#' :: (body ++ stuck.takeWhile (· ≠ '\n')), .comment⟩ := by
    rw [← List.takeWhile_append_of_pos all]
    simp [first?, isBlank]
  rw [reached] at found
  cases found
  simp

theorem first?_shorten {more stuck : List Char} {span : Span}
    (found : first? (span.chars ++ (more ++ stuck)) = some span)
    (onward : more = [] ∨ first? (more ++ stuck) ≠ none) :
    first? (span.chars ++ more) = some span := by
  obtain ⟨stretch, longest⟩ := first?_eq_some_iff.mp found
  refine first?_eq_some_iff.mpr ⟨stretch.shorten, ?_⟩
  intro other behind otherStretch same
  have whole : other.chars ++ (behind ++ stuck) = span.chars ++ (more ++ stuck) := by
    rw [← List.append_assoc, same, List.append_assoc]
  rcases otherStretch.lengthen stuck with longer | ⟨rfl, ⟨body, comment, line⟩ | date⟩
  · exact longest other _ longer whole
  · rw [← whole, comment] at found
    rw [comment]
    exact comment_length_le line found
  · rw [← whole] at found
    rcases cut_broken_date date found whole with equal | stops
    · omega
    · rcases onward with nothing | goes
      · rw [nothing, List.append_nil, List.append_nil] at same
        rw [same]
      · exact absurd stops goes

theorem cut_spec (cs : List Char) :
    (cut cs).1.flatMap Span.chars ++ (cut cs).2 = cs ∧ first? (cut cs).2 = none := by
  fun_induction cut cs with
  | case1 cs stuck => exact ⟨rfl, stuck⟩
  | case2 cs span found shorter spans rest more ih =>
    obtain ⟨behind, rfl, _⟩ := first?_stretch found
    rw [List.drop_left] at more ih
    rw [more] at ih
    exact ⟨by rw [List.flatMap_cons, List.append_assoc, ih.1], ih.2⟩

theorem cut_of_stuck {cs : List Char} (stuck : first? cs = none) : cut cs = ([], cs) := by
  rw [cut]
  split
  · rfl
  · rename_i found
    rw [stuck] at found
    cases found

theorem cut_shorten (cs : List Char) :
    cut ((cut cs).1.flatMap Span.chars) = ((cut cs).1, []) := by
  fun_induction cut cs with
  | case1 cs stuck =>
    rw [List.flatMap_nil, cut]
    rfl
  | case2 cs span found shorter spans rest more ih =>
    obtain ⟨behind, rfl, _⟩ := first?_stretch found
    rw [List.drop_left] at more ih
    rw [more] at ih
    have parts := (cut_spec behind).1
    rw [more] at parts
    have onward : spans.flatMap Span.chars = [] ∨
        first? (spans.flatMap Span.chars ++ rest) ≠ none := by
      rw [parts]
      by_cases stuck : first? behind = none
      · rw [cut_of_stuck stuck] at more
        cases more
        exact Or.inl rfl
      · exact Or.inr stuck
    rw [← parts] at found
    rw [List.flatMap_cons, cut_append (first?_shorten found onward), ih]

/-- The fault points at `c`, which stands behind `before`. What is in front of it is scanned
    when it stands alone, and no blank, comment or lexeme starts at it. A quote there is
    never closed, and any other character is reported as it is. -/
structure FirstStray (source : List Char) (fault : Fault) (before : List Char) (c : Char)
    (after : List Char) : Prop where
  split : source = before ++ c :: after
  scanned : ∃ tokens, scan (String.ofList before) = .ok tokens
  nothing : ∀ span rest, Stretch rest span → span.chars ++ rest ≠ c :: after
  quote : c = '"' → fault = .unterminatedString (.behind before) ∧ '"' ∉ after
  other : c ≠ '"' → fault = .unexpectedCharacter c (.behind before)

/-- A text that cannot be scanned is at fault at the first character that its cut does not
    get past. -/
theorem scan_fault_at_stray {source : String} {fault : Fault}
    (failed : scan source = .error fault) :
    ∃ before c after, FirstStray source.toList fault before c after := by
  obtain ⟨parts, stuck⟩ := cut_spec source.toList
  have alone := cut_shorten source.toList
  unfold scan at failed
  simp only at failed
  split at failed
  · cases failed
  · rename_i c after rest
    rw [Position.start_after] at failed
    rw [rest] at parts stuck
    refine ⟨_, c, after, parts.symm, ?_, first?_eq_none_iff.mp stuck, ?_, ?_⟩
    · simp only [scan, String.toList_ofList, alone]
      exact ⟨_, rfl⟩
    · rintro rfl
      exact ⟨by simpa using failed.symm, no_quote_of_stuck stuck⟩
    · intro plain
      simpa [plain] using failed.symm

theorem underscored_date_stray : ∃ before c after,
    FirstStray "p\n2020-01-01_ \"open".toList (.unexpectedCharacter '-' ⟨2, 5⟩) before c after := by
  have failed : scan "p\n2020-01-01_ \"open" = .error (.unexpectedCharacter '-' ⟨2, 5⟩) := by
    decide +kernel
  exact scan_fault_at_stray failed

end BoxScore.Token
