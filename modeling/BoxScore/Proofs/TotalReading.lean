import BoxScore.Proofs.PredictiveReading

/- Reading as a run over a fixed row of tokens. Nothing is asked of the tokens: there may
   be none, the end of input may stand among them or be missing, and the texts may be any.
   Every loop of the reader ends, since each of its rounds takes up a token that is not the
   last one. The cursor only moves on, and once a program is read it does not move again. -/
namespace BoxScore

namespace Reading

variable {α : Type}

/-- A loop completes a number of rounds, and then finds no further item or is refused. -/
inductive Rounds (item? : List Token → Option (Attempt (α × List Token))) :
    List Token → Nat → Prop where
  | stop {ts : List Token} (none : item? ts = none) : Rounds item? ts 0
  | refused {ts : List Token} {r : Refusal} (failed : item? ts = some (.error r)) :
      Rounds item? ts 0
  | next {ts rest : List Token} {a : α} {n : Nat} (read : item? ts = some (.ok (a, rest)))
      (more : Rounds item? rest n) : Rounds item? ts (n + 1)

/-- A loop over items that makes no more rounds than there are tokens. -/
structure Halts (item? : List Token → Option (Attempt (α × List Token)))
    (loop : List Token → Attempt (List α × List Token)) : Prop where
  repeats : Repeats item? loop
  ends : ∀ ts, ∃ n ≤ ts.length, Rounds item? ts n

theorem Repeats.halts {item? : List Token → Option (Attempt (α × List Token))}
    {loop : List Token → Attempt (List α × List Token)} (repeats : Repeats item? loop) :
    Halts item? loop where
  repeats := repeats
  ends ts := by
    induction size : ts.length using Nat.strongRecOn generalizing ts with
    | ind k ih =>
      cases found : item? ts with
      | none => exact ⟨0, Nat.zero_le _, .stop found⟩
      | some attempt =>
        cases attempt with
        | error r => exact ⟨0, Nat.zero_le _, .refused found⟩
        | ok outcome =>
          obtain ⟨a, rest⟩ := outcome
          have shorter := repeats.shortens found
          obtain ⟨n, few, more⟩ := ih rest.length (by omega) rest rfl
          exact ⟨n + 1, by omega, .next found more⟩

theorem program_at_end {ts : List Token} (finish : headKind ts = .eof) :
    program ts = .ok (.empty, ts) :=
  program_complete (.mk .nil .absent) finish

end Reading

namespace TokenStream

open Reading

variable (s : TokenStream)

/- The moves of the cursor keep the tokens and never go back. -/

@[simp]
theorem atWord_tokens : s.atWord.tokens = s.tokens := rfl

theorem cursor_le_atWord : s.cursor ≤ s.atWord.cursor := Nat.le_add_right _ _

@[simp]
theorem advance_tokens : s.advance.tokens = s.tokens := by
  unfold advance
  split <;> rfl

theorem cursor_le_advance : s.cursor ≤ s.advance.cursor := by
  have first := s.cursor_le_atWord
  unfold advance
  split
  · exact Nat.le_succ_of_le first
  · exact first

theorem pass_tokens (count : Nat) : (s.pass count).tokens = s.tokens := by
  induction count generalizing s with
  | zero => rfl
  | succ count ih => rw [pass, ih, advance_tokens]

theorem cursor_le_pass (count : Nat) : s.cursor ≤ (s.pass count).cursor := by
  induction count generalizing s with
  | zero => exact Nat.le_refl _
  | succ count ih => exact Nat.le_trans s.cursor_le_advance (ih s.advance)

theorem upTo_tokens (rest : List Token) : (s.upTo rest).tokens = s.tokens := by
  rw [upTo, atWord_tokens, pass_tokens]

theorem cursor_le_upTo (rest : List Token) : s.cursor ≤ (s.upTo rest).cursor :=
  Nat.le_trans (s.cursor_le_pass _) (cursor_le_atWord _)

/- What is ahead at each move. -/

theorem words_feeds {feeds : List Token} (newlines : ∀ t ∈ feeds, t.kind = .newline) :
    words feeds = [] := by
  simpa [words] using newlines

theorem words_append (front back : List Token) :
    words (front ++ back) = words front ++ words back :=
  List.filter_append front back

theorem words_cons {t : Token} (word : t.kind ≠ .newline) (ts : List Token) :
    words (t :: ts) = t :: words ts :=
  List.filter_cons_of_pos (decide_eq_true word)

theorem next_word : s.next.kind ≠ .newline := by
  have within := s.word_inside
  have short : (s.tokens.drop s.cursor).findIdx (·.kind ≠ .newline) <
      (s.tokens.drop s.cursor).length := by
    rw [List.length_drop]
    omega
  have found := List.findIdx_getElem (w := short)
  rw [List.getElem_drop] at found
  exact of_decide_eq_true found

theorem drop_cursor : ∃ feeds more, s.tokens.drop s.cursor = feeds ++ s.next :: more ∧
    (∀ t ∈ feeds, t.kind = .newline) ∧ s.tokens.drop s.atWord.cursor = s.next :: more := by
  have behind : s.tokens.drop s.atWord.cursor =
      s.next :: s.tokens.drop (s.atWord.cursor + 1) :=
    List.drop_eq_getElem_cons s.atWord.inside
  refine ⟨(s.tokens.drop s.cursor).take
    ((s.tokens.drop s.cursor).findIdx (·.kind ≠ .newline)), _, ?_, ?_, behind⟩
  · rw [← behind, atWord, ← List.drop_drop, List.take_append_drop]
  · intro t member
    obtain ⟨i, short, rfl⟩ := List.mem_take_iff_getElem.mp member
    have passed := List.not_of_lt_findIdx (Nat.lt_of_lt_of_le short (Nat.min_le_left _ _))
    simpa using passed

theorem ahead_cases :
    (s.ahead = [] ∧ s.next = s.last ∧ s.advance = s.atWord) ∨
      ∃ more, s.ahead = s.next :: more ∧ s.advance.ahead = more := by
  obtain ⟨feeds, more, split, newlines, behind⟩ := s.drop_cursor
  have size := congrArg List.length behind
  rw [List.length_drop, List.length_cons] at size
  cases more with
  | nil =>
    -- With nothing behind it, the next word is the last token, which is not passed.
    left
    refine ⟨?_, ?_, ?_⟩
    · rw [ahead, split, List.dropLast_concat, words_feeds newlines]
    · have final := List.getLast?_drop (i := s.cursor) (l := s.tokens)
      rw [if_neg (Nat.not_le.mpr s.inside), split, List.getLast?_concat] at final
      exact ((List.getLast_eq_iff_getLast?_eq_some _).mpr final.symm).symm
    · rw [advance, dif_neg]
      simp only [atWord_tokens, List.length_nil] at size ⊢
      omega
  | cons t more =>
    right
    have inside : s.atWord.cursor + 1 < s.atWord.tokens.length := by
      simp only [atWord_tokens, List.length_cons] at size ⊢
      omega
    refine ⟨words (t :: more).dropLast, ?_, ?_⟩
    · rw [ahead, split, List.dropLast_append_cons, List.dropLast_cons_cons, words_append,
        words_feeds newlines, List.nil_append, words_cons s.next_word]
    · rw [advance, dif_pos inside, ahead]
      simp only [atWord_tokens]
      rw [← List.tail_drop, behind, List.tail_cons]

theorem atWord_atWord : s.atWord.atWord = s.atWord := by
  obtain ⟨feeds, more, _, _, behind⟩ := s.drop_cursor
  have none : (s.atWord.tokens.drop s.atWord.cursor).findIdx (·.kind ≠ .newline) = 0 := by
    rw [atWord_tokens, behind, List.findIdx_cons, decide_eq_true s.next_word, cond_true]
  conv => lhs; rw [atWord]
  simp only [none, Nat.add_zero]

theorem atWord_ahead : s.atWord.ahead = s.ahead := by
  obtain ⟨feeds, more, split, newlines, behind⟩ := s.drop_cursor
  rw [ahead, ahead, atWord_tokens, behind, split, List.dropLast_append_cons, words_append,
    words_feeds newlines, List.nil_append]

theorem advance_ahead : s.advance.ahead = s.ahead.tail := by
  obtain ⟨none, _, stays⟩ | ⟨more, some, behind⟩ := s.ahead_cases
  · rw [stays, atWord_ahead, none, List.tail_nil]
  · rw [some, behind, List.tail_cons]

theorem pass_ahead (count : Nat) : (s.pass count).ahead = s.ahead.drop count := by
  induction count generalizing s with
  | zero => rfl
  | succ count ih => rw [pass, ih, advance_ahead, List.drop_tail]

theorem advance_atWord : s.atWord.advance = s.advance := by
  unfold advance
  simp only [atWord_atWord]

theorem pass_succ (count : Nat) : s.pass (count + 1) = (s.pass count).advance := by
  induction count generalizing s with
  | zero => rfl
  | succ count ih => rw [pass, ih, pass]

theorem upTo_taken {t : Token} {rest : List Token} (left : t :: rest <:+ s.ahead) :
    (s.upTo (t :: rest)).advance.atWord = s.upTo rest := by
  have long := left.length_le
  rw [List.length_cons] at long
  have count : s.ahead.length - rest.length = s.ahead.length - (t :: rest).length + 1 := by
    rw [List.length_cons]
    omega
  rw [upTo, upTo, count, pass_succ, advance_atWord]

theorem next_eq : s.next = s.ahead.headD s.last := by
  obtain ⟨none, last, _⟩ | ⟨more, some, _⟩ := s.ahead_cases
  · rw [none, List.headD_nil, last]
  · rw [some, List.headD_cons]

theorem last_eq {s t : TokenStream} (same : s.tokens = t.tokens) : s.last = t.last := by
  simp only [last, same]

/-- Inside of a call, where `rest` is left of the tokens ahead: the cursor is at the token
    that the readers, which see no more than `rest`, find next. -/
structure Reaches (s : TokenStream) (rest : List Token) : Prop where
  tokens : (s.upTo rest).tokens = s.tokens
  forward : s.cursor ≤ (s.upTo rest).cursor
  inside : (s.upTo rest).cursor < s.tokens.length
  left : (s.upTo rest).ahead = rest
  seen : s.tokens[(s.upTo rest).cursor]? = some (rest.headD s.last)
  taken : ∀ t more, rest = t :: more → (s.upTo rest).advance.atWord = s.upTo more

theorem reaches {rest : List Token} (left : rest <:+ s.ahead) : s.Reaches rest := by
  have passed : (s.pass (s.ahead.length - rest.length)).ahead = rest := by
    rw [pass_ahead, ← List.suffix_iff_eq_drop.mp left]
  have same := s.upTo_tokens rest
  refine ⟨same, s.cursor_le_upTo rest, ?_, ?_, ?_, ?_⟩
  · rw [← same]
    exact (s.upTo rest).inside
  · rw [upTo, atWord_ahead, passed]
  · have word := (s.pass (s.ahead.length - rest.length)).next_eq
    rw [passed, last_eq (s.pass_tokens _)] at word
    rw [← same, List.getElem?_eq_getElem (s.upTo rest).inside, ← word]
    rfl
  · rintro t more rfl
    exact s.upTo_taken left

theorem program_stops : ∃ rest, rest <:+ s.ahead ∧ s.program.2 = s.upTo rest ∧
    ((∃ p, s.program.1 = .ok p ∧ headKind rest = .eof) ∨
      ∃ expected, s.program.1 = .error (.unexpectedToken expected
        (rest.headD s.last).shown (rest.headD s.last).position)) := by
  unfold program
  cases attempt : Reading.program s.ahead with
  | ok outcome =>
    obtain ⟨p, rest⟩ := outcome
    exact ⟨rest, (program_settled s.ahead).rest_suffix attempt, rfl,
      .inl ⟨p, rfl, program_finish attempt⟩⟩
  | error r =>
    exact ⟨r.rest, (program_settled s.ahead).refused_suffix attempt, rfl, .inr ⟨r.expected, rfl⟩⟩

theorem upTo_upTo {rest : List Token} (left : rest <:+ s.ahead) :
    (s.upTo rest).upTo rest = s.upTo rest := by
  rw [upTo, (s.reaches left).left, Nat.sub_self, pass]
  exact atWord_atWord _

theorem program_again {p : Program} (read : s.program.1 = .ok p) :
    s.program.2.program = (.ok .empty, s.program.2) := by
  obtain ⟨rest, left, moved, ⟨_, _, finish⟩ | ⟨_, failed⟩⟩ := s.program_stops
  · rw [moved, program, (s.reaches left).left, program_at_end finish]
    simp only [upTo_upTo s left]
  · rw [read] at failed
    cases failed

theorem program_tokens : s.program.2.tokens = s.tokens := by
  obtain ⟨rest, _, moved, _⟩ := s.program_stops
  rw [moved, upTo_tokens]

theorem cursor_le_program : s.cursor ≤ s.program.2.cursor := by
  obtain ⟨rest, _, moved, _⟩ := s.program_stops
  rw [moved]
  exact s.cursor_le_upTo rest

def after : Nat → TokenStream → TokenStream
  | 0, s => s
  | count + 1, s => after count s.program.2

theorem after_succ (count : Nat) : s.after (count + 1) = (s.after count).program.2 := by
  induction count generalizing s with
  | zero => rfl
  | succ count ih => rw [after, ih, after]

theorem after_tokens (count : Nat) : (s.after count).tokens = s.tokens := by
  induction count with
  | zero => rfl
  | succ count ih => rw [after_succ, program_tokens, ih]

theorem after_cursor_mono {n m : Nat} (le : n ≤ m) :
    (s.after n).cursor ≤ (s.after m).cursor := by
  induction m, le using Nat.le_induction with
  | base => exact Nat.le_refl _
  | succ m _ ih =>
    rw [after_succ]
    exact Nat.le_trans ih (cursor_le_program _)

theorem programs_getElem? {n count : Nat} (made : n < count) :
    (programs count s)[n]? = some (s.after n).program.1 := by
  induction count generalizing n s with
  | zero => cases made
  | succ count ih =>
    cases n with
    | zero => rfl
    | succ n => exact ih s.program.2 (Nat.lt_of_succ_lt_succ made)

theorem after_success {n m : Nat} {p : Program} (read : (s.after n).program.1 = .ok p)
    (later : n < m) : s.after m = s.after (n + 1) ∧ (s.after m).program.1 = .ok .empty := by
  -- The first call behind the program leaves the stream as it is, so all the later ones do.
  have still : (s.after (n + 1)).program = (.ok .empty, s.after (n + 1)) := by
    rw [after_succ]
    exact program_again _ read
  induction m, later using Nat.le_induction with
  | base => exact ⟨rfl, by rw [still]⟩
  | succ m _ ih =>
    have same : s.after (m + 1) = s.after (n + 1) := by rw [after_succ, ih.1, still]
    exact ⟨same, by rw [same, still]⟩

structure Runs (s : TokenStream) (n : Nat) : Prop where
  tokens : (s.after n).tokens = s.tokens
  inside : (s.after n).cursor < s.tokens.length
  forward : ∀ m, n ≤ m → (s.after n).cursor ≤ (s.after m).cursor
  within : ∀ rest, rest <:+ (s.after n).ahead → (s.after n).Reaches rest
  stops : ∃ rest, rest <:+ (s.after n).ahead ∧ s.after (n + 1) = (s.after n).upTo rest
  result : ∀ count, n < count → (programs count s)[n]? = some (s.after n).program.1
  quiet : ∀ p, (s.after n).program.1 = .ok p → ∀ m, n < m →
    s.after m = s.after (n + 1) ∧ (s.after m).program.1 = .ok .empty

theorem runs (n : Nat) : s.Runs n where
  tokens := s.after_tokens n
  inside := by
    rw [← s.after_tokens n]
    exact (s.after n).inside
  forward _ := s.after_cursor_mono
  within _ := (s.after n).reaches
  stops := by
    obtain ⟨rest, left, moved, _⟩ := (s.after n).program_stops
    exact ⟨rest, left, by rw [after_succ, moved]⟩
  result _ := s.programs_getElem?
  quiet _ read _ later := s.after_success read later

/-- Reading ends on all tokens, in each of its loops and at every one of its calls, and it
    stays inside of the tokens it was given. -/
theorem reading_total (tokens : List Token) :
    Halts nextDeclaration? declarations ∧ Halts nextFilter? moreFilters ∧
      Halts nextField? moreFields ∧ Halts clause? clauses ∧
      closed tokens ≠ [] ∧ (ofTokens tokens).tokens = closed tokens ∧
      ∀ n, (ofTokens tokens).Runs n := by
  refine ⟨declarations_repeats.halts, moreFilters_repeats.halts, moreFields_repeats.halts,
    clauses_repeats.halts, ?_, rfl, (ofTokens tokens).runs⟩
  exact List.length_pos_iff.mp (length_pos_of_ended (closed_ended tokens))

end TokenStream
end BoxScore
