import BoxScore.Proofs.Lexemes
import BoxScore.Proofs.Numerals

/- Scanning cuts a text into the longest stretches of the lexical grammar. A stretch at
   the front of a text is either what is cut off there or shorter than it, so the cut is
   the only one that the grammar admits. -/
namespace BoxScore.Token

/-- The first stretch cut off a text is the given one or a longer one. -/
def Reaches (cs : List Char) (span : Span) : Prop :=
  ∃ found, first? cs = some found ∧ (found = span ∨ span.chars.length < found.chars.length)

/- The first character decides which sort of stretch is cut off. -/

theorem first?_alphanum {c : Char} (cs : List Char) (alphanum : c.isAlphanum) :
    first? (c :: cs) = some (if c.isAlpha then word (c :: cs) else numeral (c :: cs)) := by
  have other : ∀ d : Char, d.isAlphanum = false → c ≠ d := by
    intro d none same
    rw [same, none] at alphanum
    cases alphanum
  have noBlank : isBlank c = false := by
    simp [isBlank, other ' ' (by decide), other '\t' (by decide), other '\r' (by decide)]
  simp only [first?, noBlank, other '\n' (by decide), other '#' (by decide),
    other '"' (by decide), Bool.false_eq_true, ↓reduceIte]
  cases letter : c.isAlpha with
  | true => simp
  | false =>
    have digit : c.isDigit := by simpa [Char.isAlphanum, letter] using alphanum
    simp [digit]

theorem first?_letter {c : Char} (cs : List Char) (letter : c.isAlpha) :
    first? (c :: cs) = some (word (c :: cs)) := by
  rw [first?_alphanum cs (by simp [Char.isAlphanum, letter]), if_pos letter]

theorem first?_digit {c : Char} (cs : List Char) (digit : c.isDigit) :
    first? (c :: cs) = some (numeral (c :: cs)) := by
  have noLetter : ¬ c.isAlpha := by
    have low : 48 ≤ c.toNat ∧ c.toNat ≤ 57 := Char.isDigit_iff_toNat.mp digit
    rw [isAlpha_iff, isUpper_iff, isLower_iff]
    omega
  rw [first?_alphanum cs (by simp [Char.isAlphanum, digit]), if_neg noLetter]

theorem run_append {p : Char → Bool} {cs rest : List Char} (all : ∀ c ∈ cs, p c)
    (stop : ∀ c ∈ rest.head?, p c = false) :
    (cs ++ rest).takeWhile p = cs ∧ (cs ++ rest).dropWhile p = rest := by
  rw [List.takeWhile_append_of_pos all, List.dropWhile_append_of_pos all]
  cases rest with
  | nil => simp
  | cons c rest => simp [stop c rfl]

/- Words. -/

theorem isNameChar_of_isName {cs : List Char} (name : IsName cs) : ∀ c ∈ cs, isNameChar c := by
  obtain ⟨d, rest, rfl, letter, chars⟩ := name
  intro c member
  rcases List.mem_cons.mp member with first | later
  · exact first ▸ isNameChar_of_isAlpha letter
  · exact chars c later

theorem first?_name {cs : List Char} (name : IsName cs) (rest : List Char) :
    first? (cs ++ rest) = some (word (cs ++ rest)) := by
  obtain ⟨c, tail, rfl, letter, _⟩ := name
  exact first?_letter _ letter

theorem name_reaches {cs : List Char} (name : IsName cs) (rest : List Char) :
    Reaches (cs ++ rest) (.ofToken (.ofWord (String.ofList cs)) cs) := by
  have run : (cs ++ rest).takeWhile isNameChar = cs ++ rest.takeWhile isNameChar :=
    List.takeWhile_append_of_pos (isNameChar_of_isName name)
  refine ⟨_, first?_name name rest, ?_⟩
  rcases word_cases (cs ++ rest) with ⟨d, more, _, _, field⟩ | ⟨_, plain⟩
  · right
    rw [field, run]
    simp only [Span.ofToken, List.length_append, List.length_cons]
    omega
  · rw [plain, run]
    cases rest.takeWhile isNameChar with
    | nil => simp
    | cons d more => simp [Span.ofToken]

theorem fieldAccess_reaches {owner name : List Char} (first : IsName owner)
    (second : IsName name) (rest : List Char) :
    Reaches (owner ++ '.' :: name ++ rest) (.ofToken .fieldAccess (owner ++ '.' :: name)) := by
  obtain ⟨d, tail, rfl, letter, chars⟩ := second
  obtain ⟨taken, dropped⟩ := @run_append isNameChar owner ('.' :: (d :: tail ++ rest))
    (isNameChar_of_isName first) (by simp [isNameChar])
  rw [List.append_assoc, List.cons_append]
  refine ⟨_, first?_name first _, ?_⟩
  rcases word_cases (owner ++ '.' :: (d :: tail ++ rest)) with
    ⟨e, more, after, _, field⟩ | ⟨none, _⟩
  · rw [dropped, List.cons_append] at after
    cases after
    rw [field, taken, List.takeWhile_append_of_pos chars]
    cases rest.takeWhile isNameChar with
    | nil => simp
    | cons c more =>
      right
      simp [Span.ofToken]
  · rw [none d _ dropped] at letter
    cases letter

/- Numbers and dates. -/

theorem dateShape_parts {cs : List Char} (shape : isDateShape cs) :
    cs.length = 10 ∧ '-' ∈ cs ∧ (∃ c rest, cs = c :: rest ∧ c.isDigit) ∧
      ∀ c ∈ cs, c.isDigit ∨ c = '-' := by
  unfold isDateShape at shape
  split at shape
  · rename_i a b c d e f g h i j
    simp only [List.all_cons, List.all_nil, Bool.or_eq_true, Bool.and_eq_true,
      decide_eq_true_eq] at shape
    refine ⟨rfl, ?_, ⟨a, _, rfl, ?_⟩, ?_⟩
    · rcases shape with ⟨⟨_, dash⟩, _⟩ | ⟨⟨_, dash⟩, _⟩
      · simp [dash]
      · simp [dash]
    · rcases shape with ⟨⟨digits, _⟩, _⟩ | ⟨⟨digits, _⟩, _⟩
      · exact digits.1
      · exact digits.1
    · rcases shape with ⟨⟨digits, first⟩, second⟩ | ⟨⟨digits, first⟩, second⟩
      · simp [digits, first, second]
      · simp [digits, first, second]
  · cases shape

theorem date_reaches {cs rest : List Char} (shape : isDateShape cs)
    (alone : ∀ c ∈ rest.head?, isNameChar c = false) :
    Reaches (cs ++ rest) (.ofToken .date cs) := by
  obtain ⟨length, _, ⟨c, tail, split, digit⟩, _⟩ := dateShape_parts shape
  have front : (cs ++ rest).take 10 = cs := by rw [← length, List.take_left]
  have back : (cs ++ rest).drop 10 = rest := by rw [← length, List.drop_left]
  have starts : startsWithDate (cs ++ rest) := by
    rw [startsWithDate, front, back, shape, Bool.true_and]
    cases rest with
    | nil => rfl
    | cons d rest => simpa using alone d rfl
  refine ⟨numeral (cs ++ rest), by rw [split]; exact first?_digit _ digit, Or.inl ?_⟩
  rw [numeral, if_pos starts, front]

/-- A text that starts with a number and is cut off as a date: the date is longer, since
    a number has no dash. -/
theorem number_lt_date {cs rest : List Char} (noDash : '-' ∉ cs)
    (starts : startsWithDate (cs ++ rest)) :
    cs.length < ((cs ++ rest).take 10).length := by
  obtain ⟨length, dash, _⟩ := dateShape_parts ((Bool.and_eq_true _ _).mp starts).1
  rw [length]
  by_contra long
  rw [List.take_append_of_le_length (by omega)] at dash
  exact noDash (List.mem_of_mem_take dash)

theorem numeral_reaches {cs rest : List Char} (noDash : '-' ∉ cs)
    (digit : ∃ c tail, cs = c :: tail ∧ c.isDigit)
    (plain : number (cs ++ rest) = .ofToken .number cs ∨
      cs.length < (number (cs ++ rest)).chars.length) :
    Reaches (cs ++ rest) (.ofToken .number cs) := by
  obtain ⟨c, tail, split, first⟩ := digit
  refine ⟨numeral (cs ++ rest), by rw [split]; exact first?_digit _ first, ?_⟩
  unfold numeral
  split
  · rename_i date
    exact Or.inr (number_lt_date noDash date)
  · exact plain

theorem digits_reaches {cs : List Char} (digits : IsDigits cs) (rest : List Char) :
    Reaches (cs ++ rest) (.ofToken .number cs) := by
  obtain ⟨c, tail, split, first, _⟩ := digits.cons_eq
  refine numeral_reaches (digits.not_mem (by decide)) ⟨c, tail, split, first⟩ ?_
  have run : (cs ++ rest).takeWhile Char.isDigit = cs ++ rest.takeWhile Char.isDigit :=
    List.takeWhile_append_of_pos digits.2
  rcases number_cases (cs ++ rest) with ⟨d, more, _, _, decimal⟩ | ⟨_, whole⟩
  · right
    rw [decimal, run]
    simp only [Span.ofToken, List.length_append, List.length_cons]
    omega
  · rw [whole, run]
    cases rest.takeWhile Char.isDigit with
    | nil => simp
    | cons d more => simp [Span.ofToken]

theorem decimal_reaches {whole part : List Char} (first : IsDigits whole)
    (second : IsDigits part) (rest : List Char) :
    Reaches (whole ++ '.' :: part ++ rest) (.ofToken .number (whole ++ '.' :: part)) := by
  have noDash : '-' ∉ whole ++ '.' :: part := by
    simp only [List.mem_append, List.mem_cons, not_or]
    exact ⟨first.not_mem (by decide), by decide, second.not_mem (by decide)⟩
  obtain ⟨c, front, split, digit, _⟩ := first.cons_eq
  refine numeral_reaches noDash ⟨c, front ++ '.' :: part, by simp [split], digit⟩ ?_
  obtain ⟨d, tail, rfl, nextDigit, chars⟩ := second.cons_eq
  obtain ⟨taken, dropped⟩ := @run_append Char.isDigit whole ('.' :: (d :: tail ++ rest))
    first.2 (by simp)
  rw [List.append_assoc, List.cons_append]
  rcases number_cases (whole ++ '.' :: (d :: tail ++ rest)) with
    ⟨e, more, after, _, decimal⟩ | ⟨none, _⟩
  · rw [dropped, List.cons_append] at after
    cases after
    rw [decimal, taken, List.takeWhile_append_of_pos chars]
    cases rest.takeWhile Char.isDigit with
    | nil => simp
    | cons c more => simp [Span.ofToken]
  · rw [none d _ dropped] at nextDigit
    cases nextDigit

/- Strings, comparisons and punctuation. -/

theorem run_append_of_not_mem {stop : Char} {cs rest : List Char} (clear : stop ∉ cs)
    (next : ∀ c ∈ rest.head?, c = stop) :
    (cs ++ rest).takeWhile (· ≠ stop) = cs ∧ (cs ++ rest).dropWhile (· ≠ stop) = rest := by
  apply run_append
  · intro c member
    simp only [decide_eq_true_eq]
    rintro rfl
    exact clear member
  · intro c member
    simp [next c member]

theorem string_reaches {body : List Char} (closed : '"' ∉ body) (rest : List Char) :
    Reaches ('"' :: body ++ ['"'] ++ rest)
      ⟨'"' :: body ++ ['"'], .token .string (String.ofList body)⟩ := by
  have parts := @run_append_of_not_mem '"' body ('"' :: rest) closed (by simp)
  refine ⟨_, ?_, Or.inl rfl⟩
  have letters : first? ('"' :: body ++ ['"'] ++ rest) = quoted? (body ++ '"' :: rest) := by
    simp [first?, isBlank]
  rw [letters, quoted?]
  simp only [parts.1, parts.2]

theorem first?_comment {body rest : List Char} (line : '\n' ∉ body)
    (stop : ∀ c ∈ rest.head?, c = '\n') :
    first? ('#' :: body ++ rest) = some ⟨'#' :: body, .comment⟩ := by
  have parts := run_append_of_not_mem line stop
  simp only [List.cons_append, first?, isBlank, parts.1]
  simp

def signs : List Char := ['=', '<', '>', '!', ',', '(', ')', '[', ']']

theorem first?_sign {c : Char} (cs : List Char) (sign : signs.contains c) :
    first? (c :: cs) = symbol? (c :: cs) := by
  have among : c ∈ signs := List.contains_iff_mem.mp sign
  simp only [signs, List.mem_cons, List.not_mem_nil, or_false] at among
  rcases among with rfl | rfl | rfl | rfl | rfl | rfl | rfl | rfl | rfl <;> simp [first?, isBlank]

theorem single_reaches (c : Char) {span : Span} (rest : List Char) (sign : signs.contains c)
    (found : symbol? [c] = some span) (single : span.chars = [c]) : Reaches (c :: rest) span := by
  unfold Reaches
  rw [first?_sign rest sign, single]
  cases rest with
  | nil => exact ⟨span, found, Or.inl rfl⟩
  | cons d rest =>
    unfold symbol? at found ⊢
    simp only [List.take_succ_cons, List.take_zero, List.take_nil] at found ⊢
    cases Comparison.ofSymbol? (String.ofList [c, d]) with
    | some op => exact ⟨_, rfl, Or.inr (by simp [Span.ofToken])⟩
    | none =>
      refine ⟨span, ?_, Or.inl rfl⟩
      simp only
      cases one : Comparison.ofSymbol? (String.ofList [c]) with
      | some op =>
        simp only [one] at found ⊢
        exact found
      | none =>
        simp only [one] at found ⊢
        exact found

theorem pair_reaches (c d : Char) {op : Comparison} (rest : List Char) (sign : signs.contains c)
    (found : Comparison.ofSymbol? (String.ofList [c, d]) = some op) :
    Reaches (c :: d :: rest) (.ofToken (.comparison op) [c, d]) := by
  refine ⟨_, ?_, Or.inl rfl⟩
  rw [first?_sign _ sign, symbol?]
  simp only [List.take_succ_cons, List.take_zero, found]

theorem comparison_reaches (op : Comparison) (rest : List Char) :
    Reaches (op.symbol.toList ++ rest) (.ofToken (.comparison op) op.symbol.toList) := by
  cases op with
  | eq => exact single_reaches '=' rest (by decide) (by decide) rfl
  | ne => exact pair_reaches '!' '=' rest (by decide) (by decide)
  | lt => exact single_reaches '<' rest (by decide) (by decide) rfl
  | le => exact pair_reaches '<' '=' rest (by decide) (by decide)
  | gt => exact single_reaches '>' rest (by decide) (by decide) rfl
  | ge => exact pair_reaches '>' '=' rest (by decide) (by decide)

theorem punctuation_reaches (mark : Punctuation) (rest : List Char) :
    Reaches (mark.symbol.toList ++ rest) (.ofToken (.punctuation mark) mark.symbol.toList) := by
  cases mark with
  | comma => exact single_reaches ',' rest (by decide) (by decide) rfl
  | leftParen => exact single_reaches '(' rest (by decide) (by decide) rfl
  | rightParen => exact single_reaches ')' rest (by decide) (by decide) rfl
  | leftBracket => exact single_reaches '[' rest (by decide) (by decide) rfl
  | rightBracket => exact single_reaches ']' rest (by decide) (by decide) rfl

/- All stretches. -/

theorem keyword_isName (word : Keyword) : IsName word.spelling.toList := by
  have known : Keyword.all.all fun word => word.spelling.toList.head?.any Char.isAlpha &&
      word.spelling.toList.all isNameChar := by decide
  have fits := List.all_eq_true.mp known word (mem_keywords word)
  cases spelled : word.spelling.toList with
  | nil => simp [spelled] at fits
  | cons c rest =>
    simp only [spelled, List.head?_cons, Option.any_some, List.all_cons, Bool.and_eq_true] at fits
    exact ⟨c, rest, rfl, fits.1, List.all_eq_true.mp fits.2.2⟩

theorem ofSpelling?_keyword (word : Keyword) : Keyword.ofSpelling? word.spelling = some word := by
  have known : Keyword.all.all fun word =>
      decide (Keyword.ofSpelling? word.spelling = some word) := by decide
  simpa using List.all_eq_true.mp known word (mem_keywords word)

theorem ofSpelling?_none {cs : List Char} (free : ¬ IsReserved cs) :
    Keyword.ofSpelling? (String.ofList cs) = none := by
  cases found : Keyword.ofSpelling? (String.ofList cs) with
  | none => rfl
  | some word =>
    have spelled := ofSpelling?_spelling found
    exact absurd ⟨word, by simp [spelled]⟩ free

theorem not_dateShape {cs : List Char} (name : IsName cs) : isDateShape cs = false := by
  cases shape : isDateShape cs with
  | false => rfl
  | true =>
    obtain ⟨_, dash, _⟩ := dateShape_parts shape
    exact absurd (isNameChar_of_isName name '-' dash) (by decide)

theorem ofWord_canonicalName {cs : List Char} (name : IsName cs) (free : ¬ IsReserved cs)
    (proper : IsProper cs) : Kind.ofWord (String.ofList cs) = .canonicalName := by
  have capital := (isProper_iff name).mp proper
  simp only [Kind.ofWord, ofSpelling?_none free, String.toList_ofList, not_dateShape name, capital,
    Bool.false_eq_true, ↓reduceIte]

theorem ofWord_identifier {cs : List Char} (name : IsName cs) (free : ¬ IsReserved cs)
    (plain : ¬ IsProper cs) : Kind.ofWord (String.ofList cs) = .identifier := by
  have small := (isProper_iff name).not.mp plain
  simp only [Kind.ofWord, ofSpelling?_none free, String.toList_ofList, not_dateShape name, small,
    Bool.false_eq_true, ↓reduceIte]

theorem plain_reaches {kind : Kind} {cs rest : List Char} (plain : kind ≠ .string)
    (admitted : kind.Admits cs) (sorted : kind.Sorts cs) (notEnd : kind ≠ .eof)
    (alone : kind = .date → ∀ c ∈ rest.head?, isNameChar c = false) :
    Reaches (cs ++ rest) (.ofToken kind cs) := by
  cases kind with
  | keyword word =>
    subst admitted
    have kind : Kind.ofWord word.spelling = .keyword word := by
      simp [Kind.ofWord, ofSpelling?_keyword]
    simpa [kind] using name_reaches (keyword_isName word) rest
  | comparison op =>
    subst admitted
    exact comparison_reaches op rest
  | punctuation mark =>
    subst admitted
    exact punctuation_reaches mark rest
  | number =>
    rcases admitted with digits | ⟨whole, part, rfl, first, second⟩
    · exact digits_reaches digits rest
    · exact decimal_reaches first second rest
  | string => exact absurd rfl plain
  | canonicalName =>
    simpa [ofWord_canonicalName admitted sorted.1 sorted.2] using name_reaches admitted rest
  | date => exact date_reaches admitted (alone rfl)
  | identifier =>
    simpa [ofWord_identifier admitted sorted.1 sorted.2] using name_reaches admitted rest
  | fieldAccess =>
    obtain ⟨owner, name, rfl, first, second⟩ := admitted
    exact fieldAccess_reaches first second rest
  | newline =>
    subst admitted
    exact ⟨_, by simp [first?, isBlank], Or.inl rfl⟩
  | eof => exact absurd rfl notEnd

theorem stretch_reaches {rest : List Char} {span : Span} (stretch : Stretch rest span) :
    Reaches (span.chars ++ rest) span := by
  cases stretch with
  | blank blank => exact ⟨_, by simp [first?, blank], Or.inl rfl⟩
  | comment line stop => exact ⟨_, first?_comment line stop, Or.inl rfl⟩
  | @token kind text lexeme alone =>
    obtain ⟨cs, rfl⟩ : ∃ cs, text = String.ofList cs := ⟨text.toList, by simp⟩
    obtain ⟨admitted, sorted, notEnd⟩ := lexeme
    rw [String.toList_ofList] at admitted sorted
    by_cases string : kind = .string
    · subst string
      simpa [Kind.written] using string_reaches admitted rest
    · have reached := plain_reaches string admitted sorted notEnd alone
      simpa [Kind.written, string, Span.ofToken] using reached

theorem first?_eq_some_iff {rest : List Char} {span : Span} :
    first? (span.chars ++ rest) = some span ↔ Stretch rest span ∧ Longest span.chars rest := by
  constructor
  · intro found
    obtain ⟨behind, split, stretch⟩ := first?_stretch found
    rw [← List.append_cancel_left split] at stretch
    refine ⟨stretch, ?_⟩
    intro other rest' otherStretch same
    obtain ⟨longest, again, reached⟩ := stretch_reaches otherStretch
    rw [same, found] at again
    cases again
    rcases reached with equal | shorter
    · exact Nat.le_of_eq (congrArg (·.chars.length) equal.symm)
    · exact Nat.le_of_lt shorter
  · rintro ⟨stretch, longest⟩
    -- What is cut off is a stretch too, so it cannot be longer than the longest.
    obtain ⟨found, first, reached⟩ := stretch_reaches stretch
    rcases reached with equal | shorter
    · rw [first, equal]
    · obtain ⟨behind, split, foundStretch⟩ := first?_stretch first
      have bound := longest found behind foundStretch split.symm
      omega

/- The whole text. -/

theorem cut_append {rest : List Char} {span : Span}
    (found : first? (span.chars ++ rest) = some span) :
    cut (span.chars ++ rest) = (span :: (cut rest).1, (cut rest).2) := by
  rw [cut]
  split
  · rename_i none
    rw [none] at found
    cases found
  · rename_i other again
    rw [found] at again
    cases again
    simp

theorem tiled_of_cut (cs : List Char) (whole : (cut cs).2 = []) (before : List Char) :
    Tiled before cs (place (.behind before) (cut cs).1) := by
  fun_induction cut cs generalizing before with
  | case1 cs stuck =>
    simp only at whole
    subst whole
    exact .finish
  | case2 cs span found shorter spans rest more ih =>
    obtain ⟨behind, rfl, _⟩ := first?_stretch found
    rw [List.drop_left] at more ih
    obtain ⟨stretch, longest⟩ := first?_eq_some_iff.mp found
    rw [more] at ih
    rw [place, Position.behind_after]
    exact .next stretch longest (ih whole _)

theorem cut_of_tiled {before rest : List Char} {tokens : List Token}
    (tiled : Tiled before rest tokens) :
    (cut rest).2 = [] ∧ place (.behind before) (cut rest).1 = tokens := by
  induction tiled with
  | finish =>
    rw [cut]
    exact ⟨rfl, rfl⟩
  | @next before rest span tokens stretch longest more ih =>
    rw [cut_append (first?_eq_some_iff.mpr ⟨stretch, longest⟩)]
    refine ⟨ih.1, ?_⟩
    rw [place, Position.behind_after, ih.2]

theorem scan_of_tiled {source : String} {tokens : List Token}
    (tiled : Tiled [] source.toList tokens) : scan source = .ok tokens := by
  obtain ⟨whole, placed⟩ := cut_of_tiled tiled
  simp only [scan, whole]
  exact congrArg Except.ok placed

theorem tiled_of_scan {source : String} {tokens : List Token}
    (scanned : scan source = .ok tokens) : Tiled [] source.toList tokens := by
  unfold scan at scanned
  simp only at scanned
  split at scanned
  · rename_i whole
    cases scanned
    exact tiled_of_cut source.toList whole []
  · cases scanned

/-- A text is scanned exactly if it is a row of longest blanks, comments and lexemes, and
    its tokens are then those of the lexemes with their places, and the end of the text. -/
theorem scan_lossless (source : String) (tokens : List Token) :
    scan source = .ok tokens ↔ Tiled [] source.toList tokens :=
  ⟨tiled_of_scan, scan_of_tiled⟩

end BoxScore.Token
