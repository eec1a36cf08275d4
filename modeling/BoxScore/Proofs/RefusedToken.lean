import BoxScore.Proofs.PlacelessReading
import BoxScore.Proofs.PredictiveReading
import Mathlib.Data.List.Nodup

/- The token that a fault of form points at. Its place is that of no other token, the
   tokens in front of it begin some program, and no program begins with these and it. -/
namespace BoxScore

namespace Position

def Before (p q : Position) : Prop :=
  p.line < q.line ∨ (p.line = q.line ∧ p.column < q.column)

theorem Before.trans {p q r : Position} (first : p.Before q) (second : q.Before r) :
    p.Before r := by
  unfold Before at *
  omega

theorem Before.ne {p q : Position} (before : p.Before q) : p ≠ q := by
  rintro rfl
  unfold Before at before
  omega

theorem before_next (p : Position) (c : Char) : p.Before (p.next c) := by
  unfold Before next
  split <;> simp

theorem before_after (p : Position) {cs : List Char} (nonempty : cs ≠ []) :
    p.Before (p.after cs) := by
  induction cs generalizing p with
  | nil => contradiction
  | cons c cs ih =>
    cases cs with
    | nil => exact before_next p c
    | cons d cs => exact (before_next p c).trans (ih (p.next c) (by simp))

end Position

namespace Token

theorem tiled_ordered {before rest : List Char} {tokens : List Token}
    (tiled : Tiled before rest tokens) :
    (∀ t ∈ tokens, t.position = .behind before ∨ (Position.behind before).Before t.position) ∧
      tokens.Pairwise fun t u => t.position.Before u.position := by
  induction tiled with
  | finish => simp
  | @next before rest span tokens stretch longest more ih =>
    obtain ⟨behind, ordered⟩ := ih
    have nonempty := first?_chars_ne_nil (first?_eq_some_iff.mpr ⟨stretch, longest⟩)
    have later : ∀ t ∈ tokens, (Position.behind before).Before t.position := by
      intro t member
      have step := Position.before_after (.behind before) nonempty
      rw [Position.behind_after] at step
      rcases behind t member with same | further
      · rw [same]
        exact step
      · exact step.trans further
    have own : ∀ t ∈ (span.token? (.behind before)).toList, t.position = .behind before := by
      intro t member
      unfold Span.token? at member
      split at member
      · rw [Option.toList_some, List.mem_singleton] at member
        rw [member]
      · cases member
    constructor
    · intro t member
      rcases List.mem_append.mp member with first | second
      · exact Or.inl (own t first)
      · exact Or.inr (later t second)
    · refine List.pairwise_append.mpr ⟨?_, ordered, ?_⟩
      · cases span.token? (.behind before) <;> simp
      · intro t first u second
        rw [own t first]
        exact later u second

theorem place_unique {source : String} {tokens : List Token} (scanned : scan source = .ok tokens)
    {t u : Token} (first : t ∈ tokens) (second : u ∈ tokens)
    (same : t.position = u.position) : t = u := by
  have ordered := (tiled_ordered (tiled_of_scan scanned)).2
  have distinct : (tokens.map position).Nodup :=
    List.pairwise_map.mpr (ordered.imp fun before => before.ne)
  exact List.inj_on_of_nodup_map distinct first second same

end Token

namespace TokenStream

def Accepted (tokens : List Token) : Prop := ∃ p, (ofTokens tokens).program.1 = .ok p

theorem program_eq_error {s : TokenStream} {fault : Fault} : s.program.1 = .error fault ↔
    ∃ r, Reading.program s.ahead = .error r ∧ s.fault r = fault := by
  unfold program
  split
  · rename_i read
    simp [read]
  · rename_i failed
    simp [failed]

theorem words_ahead (tokens : List Token) : words tokens = (ofTokens tokens).ahead ∨
    ∃ e, e.kind = .eof ∧ words tokens = (ofTokens tokens).ahead ++ [e] := by
  rcases tokens.eq_nil_or_concat' with rfl | ⟨front, last, rfl⟩
  · exact Or.inl rfl
  · by_cases finish : last.kind = .eof
    · exact Or.inr ⟨last, finish, by simp [ahead_ofTokens, closed, words, finish]⟩
    · exact Or.inl (by simp [ahead_ofTokens, closed, finish])

theorem accepted_of_read {ts : List Token} {p : Program}
    (plain : ∀ t ∈ ts, t.kind ≠ .newline ∧ t.kind ≠ .eof)
    (read : Reading.program ts = .ok (p, [])) : Accepted ts := by
  have kept : words ts = ts :=
    List.filter_eq_self.mpr fun t member => by simpa using (plain t member).1
  refine ⟨p, program_eq_ok.mpr ⟨[], ?_⟩⟩
  rcases words_ahead ts with all | ⟨e, finish, split⟩
  · rw [← all, kept, read]
  · have member : e ∈ ts := by
      rw [← kept, split]
      simp
    exact absurd finish (plain e member).2

theorem not_accepted_of_refused {tokens : List Token}
    (failed : ∃ r, Reading.program (ofTokens tokens).ahead = .error r) : ¬ Accepted tokens := by
  rintro ⟨p, accepted⟩
  obtain ⟨rest, read⟩ := program_eq_ok.mp accepted
  obtain ⟨r, failed⟩ := failed
  rw [read] at failed
  cases failed

theorem not_accepted_of_prefix {front tokens : List Token} {t : Token} {expected : String}
    (refused : ∀ us, Reading.SameHead [t] us →
      Reading.program (front ++ us) = .error ⟨expected, us⟩)
    (starts : front ++ [t] <+: words tokens) : ¬ Accepted tokens := by
  obtain ⟨more, same⟩ := starts
  rw [List.append_assoc, List.singleton_append] at same
  apply not_accepted_of_refused
  rcases words_ahead tokens with all | ⟨e, finish, split⟩
  · rw [← all, ← same]
    exact ⟨_, refused (t :: more) (Or.inl rfl)⟩
  · rw [split] at same
    rcases more.eq_nil_or_concat' with rfl | ⟨others, last, rfl⟩
    · obtain ⟨front_eq, last_eq⟩ := List.append_inj' same rfl
      cases last_eq
      rw [← front_eq, ← front.append_nil]
      exact ⟨_, refused [] (Or.inr ⟨finish, rfl⟩)⟩
    · have ahead : front ++ t :: others = (ofTokens tokens).ahead := by
        rw [← List.cons_append, ← List.append_assoc] at same
        exact (List.append_inj' same rfl).1
      rw [← ahead]
      exact ⟨_, refused (t :: others) (Or.inl rfl)⟩

theorem words_split {tokens front rest : List Token} {t : Token}
    (same : words tokens = front ++ t :: rest) :
    ∃ before after, tokens = before ++ t :: after ∧ words before = front ∧ t.kind ≠ .newline := by
  obtain ⟨start, finish, rfl, first, second⟩ := List.filter_eq_append_iff.mp same
  obtain ⟨skipped, after, rfl, feeds, kept, _⟩ := List.filter_eq_cons_iff.mp second
  refine ⟨start ++ skipped, after, by simp, ?_, by simpa using kept⟩
  have nothing : words skipped = [] := List.filter_eq_nil_iff.mpr feeds
  calc words (start ++ skipped) = words start ++ words skipped := List.filter_append ..
    _ = front := by rw [nothing, List.append_nil]; exact first

end TokenStream

open Token TokenStream

/-- The fault points at `t`, which stands at a place of its own behind the tokens `before`.
    These begin a program that can be written, but none begins with `t` behind them. -/
structure FirstRefused (tokens : List Token) (fault : Fault) (before : List Token) (t : Token)
    (after : List Token) : Prop where
  split : tokens = before ++ t :: after
  reported : ∃ expected, fault = .unexpectedToken expected t.shown t.position
  alone : ∀ u ∈ tokens, u.position = t.position → u = t
  notFeed : t.kind ≠ .newline
  continued : ∃ more, (∀ u ∈ more, IsLexeme u.kind u.text) ∧ Accepted (words before ++ more)
  refused : ∀ others, words before ++ [t] <+: words others → ¬ Accepted others

theorem firstRefused_of_reading {source : String} {tokens before after more : List Token}
    {t : Token} {expected : String} {p : Program} (scanned : scan source = .ok tokens)
    (split : tokens = before ++ t :: after) (notFeed : t.kind ≠ .newline)
    (refused : ∀ us, Reading.SameHead [t] us →
      Reading.program (words before ++ us) = .error ⟨expected, us⟩)
    (written : Reading.Writable more) (read : Reading.program (words before ++ more) = .ok (p, [])) :
    FirstRefused tokens (.unexpectedToken expected t.shown t.position) before t after := by
  have inside : ∀ u ∈ words before, u ∈ sentence tokens := by
    intro u member
    rw [split, sentence, List.dropLast_append_of_ne_nil (by simp), List.filter_append]
    exact List.mem_append_left _ member
  have plain : ∀ u ∈ words before ++ more, u.kind ≠ .newline ∧ u.kind ≠ .eof := by
    intro u member
    rcases List.mem_append.mp member with first | second
    · exact ⟨by simpa using (List.mem_filter.mp first).2,
        (sentence_classes scanned u (inside u first)).2⟩
    · exact ⟨(written u second).2, (written u second).1.notEnd⟩
  refine ⟨split, ⟨expected, rfl⟩, ?_, notFeed, ?_, ?_⟩
  · intro u member same
    exact place_unique scanned member (by rw [split]; simp) same
  · exact ⟨more, fun u member => (written u member).1, accepted_of_read plain read⟩
  · intro others starts
    exact not_accepted_of_prefix refused starts

/-- A text of tokens that is no program is at fault at the first token with which no
    program goes on. -/
theorem fault_at_first_refused {source : String} {tokens : List Token} {fault : Fault}
    (scanned : scan source = .ok tokens) (failed : Program.parse source = .error fault) :
    ∃ before t after, FirstRefused tokens fault before t after := by
  rw [parse_scanned scanned] at failed
  obtain ⟨⟨expected, rest⟩, stopped, rfl⟩ := program_eq_error.mp failed
  rw [ahead_of_scanned scanned] at stopped
  obtain ⟨front, split, again, more, p, written, read⟩ := Reading.program_refused stopped
  obtain ⟨body, last, rfl, _⟩ := scan_tokens scanned
  have spoken : sentence (body ++ [⟨.eof, "", last⟩]) = words body := by
    simp [sentence, words]
  rw [spoken] at split
  cases rest with
  | nil =>
    -- The end of input is no token of the sentence; it is the last one of the text.
    rw [List.append_nil] at split
    subst split
    refine ⟨body, ⟨.eof, "", last⟩, [], ?_⟩
    have atEnd := firstRefused_of_reading scanned rfl (by simp)
      (fun us head => again us (Or.inr ⟨rfl, head.headKind_eq.symm⟩)) written read
    simpa [TokenStream.fault, TokenStream.last, ofTokens, closed] using atEnd
  | cons t rest =>
    obtain ⟨before, after, rfl, rfl, notFeed⟩ := words_split split
    refine ⟨before, t, after ++ [⟨.eof, "", last⟩], ?_⟩
    exact firstRefused_of_reading scanned (by simp) notFeed again written read

theorem fractional_limit_refused : ∃ before t after, FirstRefused
    [⟨.keyword .get, "get", ⟨1, 1⟩⟩, ⟨.keyword .games, "games", ⟨1, 5⟩⟩,
      ⟨.newline, "\n", ⟨1, 10⟩⟩, ⟨.keyword .limit, "limit", ⟨2, 1⟩⟩, ⟨.newline, "\n", ⟨2, 6⟩⟩,
      ⟨.number, "5.5", ⟨3, 1⟩⟩, ⟨.eof, "", ⟨3, 4⟩⟩]
    (.unexpectedToken "whole row count after 'limit'" "5.5" ⟨3, 1⟩) before t after := by
  have scanned : scan "get games\nlimit\n5.5" = .ok
      [⟨.keyword .get, "get", ⟨1, 1⟩⟩, ⟨.keyword .games, "games", ⟨1, 5⟩⟩,
        ⟨.newline, "\n", ⟨1, 10⟩⟩, ⟨.keyword .limit, "limit", ⟨2, 1⟩⟩, ⟨.newline, "\n", ⟨2, 6⟩⟩,
        ⟨.number, "5.5", ⟨3, 1⟩⟩, ⟨.eof, "", ⟨3, 4⟩⟩] := by
    decide +kernel
  exact fault_at_first_refused scanned (by decide +kernel)

end BoxScore
