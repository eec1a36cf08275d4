import BoxScore.Proofs.TokenClasses
import Mathlib.Data.List.Induction

/- The lexical grammar of a source text, told without saying how the text is cut. Each
   stretch of the text is a blank, a comment or the lexeme of one token, and no other
   stretch that starts at its place is longer. -/
namespace BoxScore

/-- The place behind the characters `before`, counted in these characters alone. -/
def Position.behind (before : List Char) : Position :=
  ⟨1 + before.count '\n', 1 + (before.reverse.takeWhile (· ≠ '\n')).length⟩

theorem Position.start_after (before : List Char) :
    Position.start.after before = .behind before := by
  induction before using List.reverseRecOn with
  | nil => rfl
  | append_singleton before c ih =>
    have step : Position.start.after (before ++ [c]) = (Position.start.after before).next c := by
      simp [after]
    rw [step, ih]
    by_cases feed : c = '\n'
    · simp [next, behind, feed]
      omega
    · simp [next, behind, feed]
      omega

theorem Position.behind_after (before cs : List Char) :
    (Position.behind before).after cs = .behind (before ++ cs) := by
  rw [← start_after, ← start_after]
  simp [after]

namespace Token

def IsReserved (cs : List Char) : Prop := ∃ word : Keyword, cs = word.spelling.toList

def IsProper (cs : List Char) : Prop := '_' ∈ cs ∨ ∃ c ∈ cs.head?, c.isUpper

/-- How names are told apart: those of persons and teams are the proper ones among the
    names that are not reserved. -/
def Kind.Sorts : Kind → List Char → Prop
  | .canonicalName, cs => ¬ IsReserved cs ∧ IsProper cs
  | .identifier, cs => ¬ IsReserved cs ∧ ¬ IsProper cs
  | _, _ => True

def Kind.written (kind : Kind) (text : String) : List Char :=
  if kind = .string then '"' :: text.toList ++ ['"'] else text.toList

structure IsLexeme (kind : Kind) (text : String) : Prop where
  admitted : kind.Admits text.toList
  sorted : kind.Sorts text.toList
  notEnd : kind ≠ .eof

/-- The stretches that can stand in front of `rest`. A comment goes on to the end of its
    line, and a date is none if a letter, a digit or an underscore follows it. -/
inductive Stretch (rest : List Char) : Span → Prop where
  | blank {c : Char} (blank : isBlank c) : Stretch rest ⟨[c], .blank⟩
  | comment {body : List Char} (line : '\n' ∉ body) (stop : ∀ c ∈ rest.head?, c = '\n') :
      Stretch rest ⟨'#' :: body, .comment⟩
  | token {kind : Kind} {text : String} (lexeme : IsLexeme kind text)
      (alone : kind = .date → ∀ c ∈ rest.head?, isNameChar c = false) :
      Stretch rest ⟨kind.written text, .token kind text⟩

def Longest (chars rest : List Char) : Prop :=
  ∀ other behind, Stretch behind other → other.chars ++ behind = chars ++ rest →
    other.chars.length ≤ chars.length

/-- The text `rest`, standing behind `before`, is a row of longest stretches, and the
    tokens are those of the stretches in their order, each at the place where its stretch
    begins, and the end of input behind the last. -/
inductive Tiled : (before rest : List Char) → List Token → Prop where
  | finish {before : List Char} : Tiled before [] [⟨.eof, "", .behind before⟩]
  | next {before rest : List Char} {span : Span} {tokens : List Token}
      (stretch : Stretch rest span) (longest : Longest span.chars rest)
      (more : Tiled (before ++ span.chars) rest tokens) :
      Tiled before (span.chars ++ rest) ((span.token? (.behind before)).toList ++ tokens)

/- The first stretch of a text is one of the grammar. -/

theorem mem_keywords (word : Keyword) : word ∈ Keyword.all := by
  cases word with
  | aggregate f => cases f <;> decide
  | entity kind => cases kind <;> decide
  | _ => decide

theorem not_reserved {text : String} (none : Keyword.ofSpelling? text = none) :
    ¬ IsReserved text.toList := by
  rintro ⟨word, spelled⟩
  have other := List.find?_eq_none.mp none word (mem_keywords word)
  have same : word.spelling = text := String.toList_inj.mp spelled.symm
  simp [same] at other

theorem uppercase_below {n : Nat} (small : n < 128) :
    Text.uppercaseRuns.any (·.holds n) = (decide (65 ≤ n) && decide (n ≤ 90)) := by
  have others : Text.uppercaseRuns.tail.all fun r => decide (128 ≤ r.first) := by decide
  have none : Text.uppercaseRuns.tail.any (·.holds n) = false := by
    rw [List.any_eq_false]
    intro r member
    have above := List.all_eq_true.mp others r member
    simp only [decide_eq_true_eq] at above
    simp only [Text.Run.holds, Bool.and_eq_true, decide_eq_true_eq, not_and]
    omega
  have split : Text.uppercaseRuns = ⟨0x0041, 0x005A, 1⟩ :: Text.uppercaseRuns.tail := rfl
  rw [split, List.any_cons, none]
  simp [Text.Run.holds, Nat.mod_one]

theorem isUpper_iff {c : Char} : c.isUpper ↔ 65 ≤ c.toNat ∧ c.toNat ≤ 90 := decide_eq_true_iff

theorem isLower_iff {c : Char} : c.isLower ↔ 97 ≤ c.toNat ∧ c.toNat ≤ 122 :=
  Bool.and_eq_true_iff.trans (and_congr decide_eq_true_iff decide_eq_true_iff)

theorem isAlpha_iff {c : Char} : c.isAlpha ↔ c.isUpper ∨ c.isLower := Bool.or_eq_true_iff

theorem isUppercase_of_isAlpha {c : Char} (letter : c.isAlpha) :
    Text.isUppercase c = c.isUpper := by
  have small : c.toNat < 128 := by
    rw [isAlpha_iff, isUpper_iff, isLower_iff] at letter
    omega
  rw [Text.isUppercase, uppercase_below small, Bool.eq_iff_iff, isUpper_iff, Bool.and_eq_true,
    decide_eq_true_eq, decide_eq_true_eq]

theorem isProper_iff {cs : List Char} (name : IsName cs) :
    IsProper cs ↔ cs.contains '_' || cs.head?.any Text.isUppercase := by
  obtain ⟨c, rest, rfl, letter, _⟩ := name
  simp [IsProper, isUppercase_of_isAlpha letter]

theorem ofWord_sorts {cs : List Char} (name : IsName cs) :
    (Kind.ofWord (String.ofList cs)).Sorts cs := by
  unfold Kind.ofWord
  split
  · trivial
  · rename_i none
    have free := not_reserved none
    rw [String.toList_ofList] at free ⊢
    simp only
    split
    · trivial
    · split
      · rename_i proper
        exact ⟨free, (isProper_iff name).mpr proper⟩
      · rename_i plain
        exact ⟨free, fun proper => plain ((isProper_iff name).mp proper)⟩

theorem ofToken_stretch {kind : Kind} {cs rest : List Char} (plain : kind ≠ .string)
    (admitted : (Span.ofToken kind cs).Admitted) (sorted : kind.Sorts cs)
    (alone : kind = .date → ∀ c ∈ rest.head?, isNameChar c = false) :
    Stretch rest (Span.ofToken kind cs) := by
  obtain ⟨admits, notEnd⟩ := admitted kind _ rfl
  have written : kind.written (String.ofList cs) = cs := by simp [Kind.written, plain]
  have stretch := Stretch.token ⟨admits, by simpa using sorted, notEnd⟩ alone
  rwa [written] at stretch

theorem word_cases (cs : List Char) :
    (∃ d rest, cs.dropWhile isNameChar = '.' :: d :: rest ∧ d.isAlpha ∧ word cs =
      .ofToken .fieldAccess (cs.takeWhile isNameChar ++ '.' :: d :: rest.takeWhile isNameChar)) ∨
    ((∀ d rest, cs.dropWhile isNameChar = '.' :: d :: rest → d.isAlpha = false) ∧ word cs =
      .ofToken (.ofWord (String.ofList (cs.takeWhile isNameChar))) (cs.takeWhile isNameChar)) := by
  unfold word
  split
  · rename_i d rest after
    split
    · rename_i letter
      exact Or.inl ⟨d, rest, after, letter, rfl⟩
    · rename_i other
      refine Or.inr ⟨?_, rfl⟩
      intro e more same
      rw [after] at same
      cases same
      simpa using other
  · rename_i other
    exact Or.inr ⟨fun d rest same => absurd same (other d rest), rfl⟩

theorem number_cases (cs : List Char) :
    (∃ d rest, cs.dropWhile Char.isDigit = '.' :: d :: rest ∧ d.isDigit ∧ number cs =
      .ofToken .number (cs.takeWhile Char.isDigit ++ '.' :: d :: rest.takeWhile Char.isDigit)) ∨
    ((∀ d rest, cs.dropWhile Char.isDigit = '.' :: d :: rest → d.isDigit = false) ∧
      number cs = .ofToken .number (cs.takeWhile Char.isDigit)) := by
  unfold number
  split
  · rename_i d rest after
    split
    · rename_i digit
      exact Or.inl ⟨d, rest, after, digit, rfl⟩
    · rename_i other
      refine Or.inr ⟨?_, rfl⟩
      intro e more same
      rw [after] at same
      cases same
      simpa using other
  · rename_i other
    exact Or.inr ⟨fun d rest same => absurd same (other d rest), rfl⟩

theorem ofWord_ne_string (text : String) : Kind.ofWord text ≠ .string := by
  unfold Kind.ofWord
  split
  · simp
  · simp only
    split
    · simp
    · split <;> simp

theorem head?_dropWhile {p : Char → Bool} (cs : List Char) :
    ∀ c ∈ (cs.dropWhile p).head?, p c = false := by
  intro c member
  have stop := List.head?_dropWhile_not p cs
  rw [Option.mem_def.mp member] at stop
  simpa using stop

theorem split_at_point {p : Char → Bool} {cs rest : List Char} {d : Char}
    (after : cs.dropWhile p = '.' :: d :: rest) :
    cs = (cs.takeWhile p ++ '.' :: d :: rest.takeWhile p) ++ rest.dropWhile p := by
  calc cs = cs.takeWhile p ++ '.' :: d :: rest := by
        rw [← after, List.takeWhile_append_dropWhile]
    _ = (cs.takeWhile p ++ '.' :: d :: rest.takeWhile p) ++ rest.dropWhile p := by
        simp

theorem word_stretch {c : Char} (cs : List Char) (letter : c.isAlpha) :
    ∃ rest, c :: cs = (word (c :: cs)).chars ++ rest ∧ Stretch rest (word (c :: cs)) := by
  have admitted := word_admitted cs letter
  rcases word_cases (c :: cs) with ⟨d, rest, after, second, field⟩ | ⟨_, plain⟩
  · rw [field] at admitted ⊢
    exact ⟨rest.dropWhile isNameChar, split_at_point after,
      ofToken_stretch (by simp) admitted trivial (by simp)⟩
  · rw [plain] at admitted ⊢
    refine ⟨(c :: cs).dropWhile isNameChar, List.takeWhile_append_dropWhile.symm, ?_⟩
    exact ofToken_stretch (ofWord_ne_string _) admitted
      (ofWord_sorts (takeWhile_isName cs letter)) fun _ => head?_dropWhile _

theorem number_stretch {c : Char} (cs : List Char) (digit : c.isDigit) :
    ∃ rest, c :: cs = (number (c :: cs)).chars ++ rest ∧ Stretch rest (number (c :: cs)) := by
  have admitted := number_admitted cs digit
  rcases number_cases (c :: cs) with ⟨d, rest, after, second, decimal⟩ | ⟨_, whole⟩
  · rw [decimal] at admitted ⊢
    exact ⟨rest.dropWhile Char.isDigit, split_at_point after,
      ofToken_stretch (by simp) admitted trivial (by simp)⟩
  · rw [whole] at admitted ⊢
    exact ⟨(c :: cs).dropWhile Char.isDigit, List.takeWhile_append_dropWhile.symm,
      ofToken_stretch (by simp) admitted trivial (by simp)⟩

theorem numeral_stretch {c : Char} (cs : List Char) (digit : c.isDigit) :
    ∃ rest, c :: cs = (numeral (c :: cs)).chars ++ rest ∧ Stretch rest (numeral (c :: cs)) := by
  have admitted := numeral_admitted cs digit
  unfold numeral at admitted ⊢
  by_cases date : startsWithDate (c :: cs)
  · rw [if_pos date] at admitted ⊢
    refine ⟨(c :: cs).drop 10, (List.take_append_drop 10 _).symm, ?_⟩
    refine ofToken_stretch (by simp) admitted trivial fun _ d member => ?_
    have alone := (Bool.and_eq_true _ _).mp date |>.2
    rw [Option.mem_def.mp member] at alone
    simpa using alone
  · rw [if_neg date]
    exact number_stretch cs digit

theorem symbol?_stretch {cs : List Char} {span : Span} (found : symbol? cs = some span) :
    ∃ rest, cs = span.chars ++ rest ∧ Stretch rest span := by
  have admitted := symbol?_admitted found
  unfold symbol? at found
  simp only at found
  split at found
  · cases found
    exact ⟨cs.drop 2, (List.take_append_drop 2 cs).symm,
      ofToken_stretch (by simp) admitted trivial (by simp)⟩
  · split at found
    · cases found
      exact ⟨cs.drop 1, (List.take_append_drop 1 cs).symm,
        ofToken_stretch (by simp) admitted trivial (by simp)⟩
    · obtain ⟨mark, _, rfl⟩ := Option.map_eq_some_iff.mp found
      exact ⟨cs.drop 1, (List.take_append_drop 1 cs).symm,
        ofToken_stretch (by simp) admitted trivial (by simp)⟩

theorem quoted?_stretch {body : List Char} {span : Span} (found : quoted? body = some span) :
    ∃ rest, '"' :: body = span.chars ++ rest ∧ Stretch rest span := by
  have admitted := quoted?_admitted found
  unfold quoted? at found
  simp only at found
  split at found
  · cases found
  · rename_i c rest after
    have quote : c = '"' := by
      have stop := head?_dropWhile (p := (· ≠ '"')) body c (by rw [after]; rfl)
      simpa using stop
    cases found
    refine ⟨rest, ?_, ?_⟩
    · have parts := List.takeWhile_append_dropWhile (p := (· ≠ '"')) (l := body)
      rw [after, quote] at parts
      simp only [List.cons_append, List.append_assoc, List.nil_append, parts]
    · have stretch := @Stretch.token rest .string _
        ⟨(admitted .string _ rfl).1, trivial, by simp⟩ (by simp)
      simpa [Kind.written] using stretch

theorem first?_stretch {cs : List Char} {span : Span} (found : first? cs = some span) :
    ∃ rest, cs = span.chars ++ rest ∧ Stretch rest span := by
  cases cs with
  | nil => simp [first?] at found
  | cons c cs =>
    have admitted := first?_admitted found
    simp only [first?] at found
    split at found
    · cases found
      exact ⟨cs, rfl, .blank ‹_›⟩
    split at found
    · cases found
      exact ⟨cs, rfl, ofToken_stretch (by simp) admitted trivial (by simp)⟩
    split at found
    · rename_i hash
      cases found
      subst hash
      refine ⟨cs.dropWhile (· ≠ '\n'), by simp, .comment ?_ fun d member => ?_⟩
      · intro member
        simpa using List.mem_takeWhile_imp member
      · simpa using head?_dropWhile _ d member
    split at found
    · rename_i quote
      subst quote
      exact quoted?_stretch found
    split at found
    · cases found
      exact word_stretch cs ‹_›
    split at found
    · cases found
      exact numeral_stretch cs ‹_›
    · exact symbol?_stretch found

end Token
end BoxScore
