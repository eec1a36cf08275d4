import BoxScore.Proofs.NumberPlaces
import BoxScore.Proofs.RefusedToken
import Mathlib.Data.Nat.Digits.Defs

/- Whole numbers in the text of a program. In range they are exact, as an operand and as a
   row count; out of range the fault is told of the number itself. -/
namespace BoxScore

open Token Text TokenStream

/-- The number that a row of digits denotes: the last one counts ones, the one in front of
    it tens, and so on. -/
def Token.denoted (t : Token) : Nat := Nat.ofDigits 10 (t.text.toList.reverse.map digitValue)

theorem digitsValue_eq_ofDigits (cs : List Char) :
    digitsValue cs = Nat.ofDigits 10 (cs.reverse.map digitValue) := by
  induction cs using List.reverseRecOn with
  | nil => rfl
  | append_singleton cs c ih =>
    rw [digitsValue, List.foldl_append, ← digitsValue, ih]
    simp [Nat.ofDigits_cons, Nat.add_comm]

namespace Reading

variable {t : Token}

theorem operand_of_digits (number : t.kind = .number) (digits : IsDigits t.text.toList)
    (small : t.denoted < 2 ^ 63) : ∃ x : Int64, x.toInt = t.denoted ∧
      ∀ rest, operand (t :: rest) = .ok (.literal (.int x) .number, rest) := by
  rw [denoted, ← digitsValue_eq_ofDigits] at small ⊢
  have inRange : digitsValue t.text.toList ≤ greatestInteger := Nat.le_of_lt_succ small
  have noPoint : '.' ∉ t.text.toList := digits.not_mem (by decide)
  refine ⟨_, Int64.toInt_ofInt_of_le (by omega) (by omega), fun rest => ?_⟩
  simp [operand, tokenExpr, number, numberValue, noPoint, readInt64_of_isDigits digits, inRange,
    Except.map]

theorem rowCount_of_digits (number : t.kind = .number) (digits : IsDigits t.text.toList)
    (small : t.denoted < 2 ^ 64) : ∃ x : UInt64, x.toNat = t.denoted ∧
      ∀ rest, rowCount (t :: rest) = .ok (x, rest) := by
  rw [denoted, ← digitsValue_eq_ofDigits] at small ⊢
  have inRange : digitsValue t.text.toList ≤ greatestCount := Nat.le_of_lt_succ small
  refine ⟨_, UInt64.toNat_ofNat_of_lt' small, fun rest => ?_⟩
  simp [rowCount, number, readUInt64_of_isDigits digits, inRange]

theorem rowCount_refused (number : t.kind = .number)
    (wrong : (IsDigits t.text.toList ∧ 2 ^ 64 ≤ t.denoted) ∨ '.' ∈ t.text.toList)
    (rest : List Token) :
    rowCount (t :: rest) = refuse "whole row count after 'limit'" (t :: rest) := by
  have unread : readUInt64 t.text = none := by
    rcases wrong with ⟨digits, large⟩ | point
    · rw [denoted, ← digitsValue_eq_ofDigits] at large
      have past : ¬ digitsValue t.text.toList ≤ greatestCount := Nat.not_le.mpr large
      rw [readUInt64_of_isDigits digits, if_neg past]
    · exact readUInt64_of_point point
  simp [rowCount, number, unread]

theorem due_of_awaited {front : List Token} (site : Site)
    (awaited : program front = .error ⟨site.expected, []⟩) :
    ∃ k, (∀ ts, program (front ++ ts) = site.read ts >>= k) ∧ Carries (inProgram site) k := by
  cases program_placed front with
  | due other k reads carries =>
    have missing := reads []
    rw [List.append_nil, awaited, other.read_nil] at missing
    cases other.eq_of_expected (Refusal.mk.inj (Except.error.inj missing)).1.symm
    exact ⟨k, reads, carries⟩
  | left p rest reads =>
    have whole := reads []
    rw [List.append_nil, awaited] at whole
    cases whole
  | failed expected rest refuses =>
    -- Some words can still follow, so what is missing cannot be refused for ever.
    obtain ⟨us, split, _, more, p, _, read⟩ := program_refused awaited
    rw [List.append_nil] at split
    rw [← split, refuses] at read
    cases read
  | bare ends stops =>
    rcases ends with ⟨p, read⟩ | ⟨expected, failed, other⟩
    · rw [awaited] at read
      cases read
    · rw [awaited] at failed
      cases failed
      exact absurd rfl (other site)

theorem refused_of_not_awaited {front : List Token} (plain : ∀ u ∈ front, u.kind ≠ .eof)
    (other : ∀ site : Site, program front ≠ .error ⟨site.expected, []⟩)
    (number : t.kind = .number) (rest : List Token) :
    ∃ expected late, late <:+ front ∧
      program (front ++ t :: rest) = .error ⟨expected, late ++ t :: rest⟩ := by
  cases program_placed front with
  | due site k reads carries =>
    refine absurd ?_ (other site)
    have missing := reads []
    rw [List.append_nil, site.read_nil] at missing
    exact missing
  | left p late reads =>
    -- A program ends at the end of input, which is neither among the words nor the number.
    have whole := reads []
    rw [List.append_nil, List.append_nil] at whole
    have inside := (program_settled front).rest_suffix whole
    have finish := program_finish (reads [t])
    cases late with
    | nil =>
      rw [List.nil_append, headKind, number] at finish
      cases finish
    | cons u late => exact absurd finish (plain u (inside.subset List.mem_cons_self))
  | failed expected late refuses =>
    have whole := refuses []
    rw [List.append_nil, List.append_nil] at whole
    exact ⟨expected, late, (program_settled front).refused_suffix whole, refuses _⟩
  | bare ends stops =>
    rcases stops t rest number with ⟨p, read⟩ | ⟨expected, failed⟩
    · have finish := program_finish read
      rw [headKind, number] at finish
      cases finish
    · exact ⟨expected, [], List.nil_suffix, failed⟩

end Reading

section Scanned

variable {source : String} {before after rest : List Token} {t : Token}

theorem sentence_number (scanned : scan source = .ok (before ++ t :: after))
    (number : t.kind = .number) :
    after ≠ [] ∧ sentence (before ++ t :: after) = words before ++ t :: words after.dropLast ∧
      ∀ u ∈ words before, u.kind ≠ .eof := by
  obtain ⟨front, last, split, classes⟩ := scan_tokens scanned
  have more : after ≠ [] := by
    rintro rfl
    have ends := (List.append_inj' split rfl).2
    cases ends
    cases number
  have whole : sentence (before ++ t :: after) = words before ++ t :: words after.dropLast := by
    rw [sentence, List.dropLast_append_of_ne_nil (List.cons_ne_nil t after),
      List.dropLast_cons_of_ne_nil more, List.filter_append,
      List.filter_cons_of_pos (by simp [number])]
    rfl
  refine ⟨more, whole, fun u member => (sentence_classes scanned u ?_).2⟩
  rw [whole]
  exact List.mem_append_left _ member

def FaultAmong (source : String) (ts : List Token) : Prop := ∃ u ∈ ts, ∃ expected,
  Program.parse source = .error (.unexpectedToken expected u.shown u.position)

theorem parse_of_read {p : Program} {tokens : List Token} (scanned : scan source = .ok tokens)
    (read : Reading.program (sentence tokens) = .ok (p, rest)) : Program.parse source = .ok p := by
  rw [parse_scanned scanned, program_eq_ok, ahead_of_scanned scanned]
  exact ⟨rest, read⟩

theorem parse_of_refused {expected : String} {u : Token} {tokens : List Token}
    (scanned : scan source = .ok tokens)
    (failed : Reading.program (sentence tokens) = .error ⟨expected, u :: rest⟩) :
    Program.parse source = .error (.unexpectedToken expected u.shown u.position) := by
  rw [parse_scanned scanned, program_eq_error, ahead_of_scanned scanned]
  exact ⟨_, failed, rfl⟩

theorem last_of_scanned {tokens : List Token} (scanned : scan source = .ok tokens) :
    tokens.getLast? = some (ofTokens tokens).last := by
  obtain ⟨front, last, rfl, _⟩ := scan_tokens scanned
  simp [TokenStream.last, ofTokens, closed]

theorem last_mem (scanned : scan source = .ok (before ++ t :: after)) (more : after ≠ []) :
    (ofTokens (before ++ t :: after)).last ∈ after := by
  have ends := last_of_scanned scanned
  rw [List.append_cons, List.getLast?_append_of_ne_nil _ more] at ends
  rw [List.append_cons]
  exact List.mem_of_getLast? ends

theorem faultAmong_of_refused (scanned : scan source = .ok (before ++ t :: after))
    (more : after ≠ []) {r : Reading.Refusal} (behind : r.rest <:+ words after.dropLast)
    (failed : Reading.program (sentence (before ++ t :: after)) = .error r) :
    FaultAmong source after := by
  obtain ⟨expected, left⟩ := r
  cases left with
  | nil =>
    refine ⟨_, last_mem scanned more, expected, ?_⟩
    rw [parse_scanned scanned, program_eq_error, ahead_of_scanned scanned]
    exact ⟨_, failed, rfl⟩
  | cons u left =>
    have inside : u ∈ words after.dropLast := behind.subset List.mem_cons_self
    exact ⟨u, List.dropLast_subset _ (List.mem_of_mem_filter inside), expected,
      parse_of_refused scanned failed⟩

/-- Reading goes on behind a number: to a program of which something holds, or to a fault
    behind the number. -/
def GoesOn (source : String) (after : List Token) (holds : Program → Prop) : Prop :=
  (∃ p, Program.parse source = .ok p ∧ holds p) ∨ FaultAmong source after

theorem GoesOn.imp {holds implied : Program → Prop} (goes : GoesOn source after holds)
    (weaker : ∀ p, holds p → implied p) : GoesOn source after implied := by
  rcases goes with ⟨p, parsed, held⟩ | fault
  · exact .inl ⟨p, parsed, weaker p held⟩
  · exact .inr fault

theorem goesOn_of_read (scanned : scan source = .ok (before ++ t :: after))
    (number : t.kind = .number) {site : Reading.Site} {v : site.Value}
    {k : site.Value × List Token → Reading.Attempt (Program × List Token)}
    (reads : ∀ ts, Reading.program (words before ++ ts) = site.read ts >>= k)
    (carries : Reading.Carries (Reading.inProgram site) k)
    (value : ∀ rest, site.read (t :: rest) = .ok (v, rest)) :
    GoesOn source after (Reading.inProgram site v (words after.dropLast)) := by
  obtain ⟨more, whole, _⟩ := sentence_number scanned number
  have goes : Reading.program (sentence (before ++ t :: after)) = k (v, words after.dropLast) := by
    rw [whole, reads, value]
    rfl
  cases outcome : k (v, words after.dropLast) with
  | ok found =>
    obtain ⟨p, rest⟩ := found
    exact .inl ⟨p, parse_of_read scanned (goes.trans outcome), (carries.read outcome).2⟩
  | error r =>
    exact .inr (faultAmong_of_refused scanned more (carries.refused outcome) (goes.trans outcome))

theorem parse_of_unread (scanned : scan source = .ok (before ++ t :: after))
    (number : t.kind = .number) {site : Reading.Site} {expected : String}
    {k : site.Value × List Token → Reading.Attempt (Program × List Token)}
    (reads : ∀ ts, Reading.program (words before ++ ts) = site.read ts >>= k)
    (unread : ∀ rest, site.read (t :: rest) = Reading.refuse expected (t :: rest)) :
    Program.parse source = .error (.unexpectedToken expected t.text t.position) := by
  obtain ⟨_, whole, _⟩ := sentence_number scanned number
  have failed : Reading.program (sentence (before ++ t :: after)) =
      .error ⟨expected, t :: words after.dropLast⟩ := by
    rw [whole, reads, unread]
    rfl
  have shown : t.shown = t.text := by simp [Token.shown, number]
  rw [← shown]
  exact parse_of_refused scanned failed

/-- The words end where something is expected. -/
def Awaits (expected : String) (ts : List Token) : Prop :=
  Reading.program (words ts) = .error ⟨expected, []⟩

instance (expected : String) (ts : List Token) : Decidable (Awaits expected ts) :=
  inferInstanceAs (Decidable (_ = _))

theorem faultAmong_of_misplaced (scanned : scan source = .ok (before ++ t :: after))
    (number : t.kind = .number) (noOperand : ¬ Awaits "expression" before)
    (noCount : ¬ Awaits "number after 'limit'" before) : FaultAmong source (before ++ [t]) := by
  obtain ⟨_, whole, plain⟩ := sentence_number scanned number
  have other : ∀ site : Reading.Site,
      Reading.program (words before) ≠ .error ⟨site.expected, []⟩ := by
    intro site
    cases site with
    | operand => exact noOperand
    | count => exact noCount
  obtain ⟨expected, late, inside, failed⟩ :=
    Reading.refused_of_not_awaited plain other number (words after.dropLast)
  rw [← whole] at failed
  cases late with
  | nil => exact ⟨t, by simp, expected, parse_of_refused scanned failed⟩
  | cons u late =>
    have member : u ∈ before := List.mem_of_mem_filter (inside.subset List.mem_cons_self)
    exact ⟨u, List.mem_append_left _ member, expected, parse_of_refused scanned failed⟩

/-- Numbers where an expression is expected and where a row count is; elsewhere a number is
    refused, unless a token in front of it is. -/
theorem numbers_read_exactly (scanned : scan source = .ok (before ++ t :: after))
    (number : t.kind = .number) :
    (Awaits "expression" before → IsDigits t.text.toList →
      (t.denoted < 2 ^ 63 → ∃ x : Int64, x.toInt = t.denoted ∧
        (∀ rest, Reading.operand (t :: rest) = .ok (.literal (.int x) .number, rest)) ∧
        GoesOn source after fun p => .literal (.int x) .number ∈ p.operands) ∧
      (2 ^ 63 ≤ t.denoted → Program.parse source =
        .error (.unexpectedToken "integer within 64-bit range" t.text t.position))) ∧
    (Awaits "number after 'limit'" before →
      (IsDigits t.text.toList → t.denoted < 2 ^ 64 → ∃ x : UInt64, x.toNat = t.denoted ∧
        (∀ rest, Reading.rowCount (t :: rest) = .ok (x, rest)) ∧
        GoesOn source after fun p => (∀ u ∈ after, u.kind ≠ .keyword .limit) →
          ∃ q, p.query = some q ∧ q.limit = some x) ∧
      ((IsDigits t.text.toList ∧ 2 ^ 64 ≤ t.denoted) ∨ '.' ∈ t.text.toList →
        Program.parse source =
          .error (.unexpectedToken "whole row count after 'limit'" t.text t.position))) ∧
    (¬ Awaits "expression" before → ¬ Awaits "number after 'limit'" before →
      FaultAmong source (before ++ [t])) := by
  refine ⟨fun awaited digits => ?_, fun awaited => ?_, fun noOperand noCount => ?_⟩
  · obtain ⟨k, reads, carries⟩ := Reading.due_of_awaited .operand awaited
    refine ⟨fun small => ?_, fun large => ?_⟩
    · obtain ⟨x, exact, read⟩ := Reading.operand_of_digits number digits small
      refine ⟨x, exact, read, ?_⟩
      exact (goesOn_of_read scanned number reads carries read).imp fun p held => held rfl
    · have past : greatestInteger < digitsValue t.text.toList := by
        rw [digitsValue_eq_ofDigits]
        exact large
      exact parse_of_unread scanned number reads
        (IsWhole.operand_refused ⟨number, digits, rfl⟩ past)
  · obtain ⟨k, reads, carries⟩ := Reading.due_of_awaited .count awaited
    refine ⟨fun digits small => ?_, fun wrong => ?_⟩
    · obtain ⟨x, exact, read⟩ := Reading.rowCount_of_digits number digits small
      refine ⟨x, exact, read, ?_⟩
      refine (goesOn_of_read scanned number reads carries read).imp fun p held unlimited => ?_
      exact held fun u member =>
        unlimited u (List.dropLast_subset _ (List.mem_of_mem_filter member))
    · exact parse_of_unread scanned number reads (Reading.rowCount_refused number wrong)
  · exact faultAmong_of_misplaced scanned number noOperand noCount

/-- The greatest whole number behind two zeros and a line feed, the first row count out of
    range, and a number where none can be read. -/
theorem numbers_at_limits :
    (∃ x : Int64, x.toInt = 9223372036854775807 ∧
      GoesOn "get games where season >=\n009223372036854775807" [⟨.eof, "", ⟨2, 22⟩⟩]
        fun p => .literal (.int x) .number ∈ p.operands) ∧
    Program.parse "get games limit 18446744073709551616" = .error (.unexpectedToken
      "whole row count after 'limit'" "18446744073709551616" ⟨1, 17⟩) ∧
    FaultAmong "get 5" [⟨.keyword .get, "get", ⟨1, 1⟩⟩, ⟨.number, "5", ⟨1, 5⟩⟩] := by
  have greatest : scan "get games where season >=\n009223372036854775807" = .ok
      ([⟨.keyword .get, "get", ⟨1, 1⟩⟩, ⟨.keyword .games, "games", ⟨1, 5⟩⟩,
        ⟨.keyword .whereWord, "where", ⟨1, 11⟩⟩, ⟨.keyword .season, "season", ⟨1, 17⟩⟩,
        ⟨.comparison .ge, ">=", ⟨1, 24⟩⟩, ⟨.newline, "\n", ⟨1, 26⟩⟩] ++
        ⟨.number, "009223372036854775807", ⟨2, 1⟩⟩ :: [⟨.eof, "", ⟨2, 22⟩⟩]) := by
    decide +kernel
  have tooMany : scan "get games limit 18446744073709551616" = .ok
      ([⟨.keyword .get, "get", ⟨1, 1⟩⟩, ⟨.keyword .games, "games", ⟨1, 5⟩⟩,
        ⟨.keyword .limit, "limit", ⟨1, 11⟩⟩] ++
        ⟨.number, "18446744073709551616", ⟨1, 17⟩⟩ :: [⟨.eof, "", ⟨1, 37⟩⟩]) := by
    decide +kernel
  have misplaced : scan "get 5" = .ok ([⟨.keyword .get, "get", ⟨1, 1⟩⟩] ++
      ⟨.number, "5", ⟨1, 5⟩⟩ :: [⟨.eof, "", ⟨1, 6⟩⟩]) := by
    decide +kernel
  refine ⟨?_, ?_, ?_⟩
  · obtain ⟨x, value, _, goes⟩ := ((numbers_read_exactly greatest rfl).1 (by decide +kernel)
      ⟨by decide +kernel, List.all_eq_true.mp (by decide +kernel)⟩).1 (by decide +kernel)
    exact ⟨x, value.trans (by decide +kernel), goes⟩
  · exact ((numbers_read_exactly tooMany rfl).2.1 (by decide +kernel)).2
      (.inl ⟨⟨by decide +kernel, List.all_eq_true.mp (by decide +kernel)⟩, by decide +kernel⟩)
  · exact (numbers_read_exactly misplaced rfl).2.2 (by decide +kernel) (by decide +kernel)

end Scanned
end BoxScore
