import BoxScore.Json
import BoxScore.Proofs.DecimalRange
import BoxScore.Proofs.PlacelessReading
import BoxScore.Proofs.SeasonLine

/- The numbers that a program writes and those that its plan binds. A whole number out of
   range is refused where it stands. A decimal is never refused: from the middle after the
   greatest finite number on it is read as infinite, and a plan that binds it has null in
   its place. -/
namespace BoxScore

open Token Text Grammar Binary64

namespace Decimal

/- No numeral has the letter of null in it. -/

theorem toDigits_no_n (n : Nat) : 'n' ∉ Nat.toDigits 10 n := by
  intro member
  exact absurd (Nat.isDigit_of_mem_toDigits (by decide) (by decide) member) (by decide)

theorem leading_no_n (s : Scaled) : 'n' ∉ s.leading.1 := by
  intro member
  have inside := (List.dropWhile_sublist _).mem (List.mem_reverse.mp member)
  exact toDigits_no_n _ (List.mem_reverse.mp inside)

theorem zeros_no_n (count : Nat) : 'n' ∉ zeros count := by
  simp [zeros]

theorem plain_no_n (layout : Layout) {digits : List Char} (absent : 'n' ∉ digits) (lead : Int) :
    'n' ∉ layout.plain digits lead := by
  have front : ∀ k, 'n' ∉ digits.take k := fun k member => absent (List.mem_of_mem_take member)
  have behind : ∀ k, 'n' ∉ digits.drop k := fun k member => absent (List.mem_of_mem_drop member)
  unfold Layout.plain
  split
  · simp [absent, zeros_no_n]
  · dsimp only
    split
    · split <;> simp [absent, zeros_no_n]
    · simp [front, behind]

theorem exponential_no_n {digits : List Char} (absent : 'n' ∉ digits) (lead : Int) :
    'n' ∉ exponential digits lead := by
  have front : 'n' ∉ digits.take 1 := fun member => absent (List.mem_of_mem_take member)
  have behind : 'n' ∉ digits.tail := fun member => absent (List.mem_of_mem_tail member)
  unfold exponential
  split <;> split <;> simp [front, behind, toDigits_no_n]

theorem magnitude_no_n (layout : Layout) (significand : Nat) (exponent : Int) :
    'n' ∉ layout.magnitude significand exponent := by
  have absent := leading_no_n (shortest layout.tie significand exponent)
  unfold Layout.magnitude
  split
  · exact plain_no_n layout (by decide) 0
  · dsimp only
    split
    · exact plain_no_n layout absent _
    · exact exponential_no_n absent _

end Decimal

namespace Json

theorem ne_null_of_absent {text : String} (absent : 'n' ∉ text.toList) : text ≠ "null" := by
  rintro rfl
  exact absent (by decide)

theorem value_eq_null_iff (v : Value) :
    value v = "null" ↔ ∃ x : Binary64, v = .float x ∧ x.isFinite = false := by
  cases v with
  | string s =>
    have quote : '"' ∈ (value (.string s)).toList := by simp [value, string]
    refine iff_of_false ?_ (by simp)
    intro null
    rw [null] at quote
    exact absurd quote (by decide)
  | int n =>
    refine iff_of_false (ne_null_of_absent ?_) (by simp)
    change 'n' ∉ (toString n.toInt).toList
    cases n.toInt with
    | ofNat k =>
      change 'n' ∉ (toString k).toList
      simpa using Decimal.toDigits_no_n k
    | negSucc k =>
      change 'n' ∉ ("-" ++ toString (k + 1)).toList
      simpa using Decimal.toDigits_no_n (k + 1)
  | float x =>
    cases x with
    | finite negative significand exponent =>
      refine iff_of_false (ne_null_of_absent ?_) (by simp [isFinite])
      change 'n' ∉ (numberLayout.write (.finite negative significand exponent)).toList
      have absent := Decimal.magnitude_no_n numberLayout significand exponent
      cases negative <;> simpa [Decimal.Layout.write] using absent
    | infinite negative => exact iff_of_true rfl ⟨_, rfl, rfl⟩
    | nan => exact iff_of_true rfl ⟨_, rfl, rfl⟩
  | bool b => cases b <;> simp [value, Value.boolText]

end Json

def Token.IsDecimal (t : Token) (x : ℚ) : Prop :=
  t.kind = .number ∧ ∃ whole part, t.text.toList = whole ++ '.' :: part ∧ IsDigits whole ∧
    IsDigits part ∧ x = digitsValue (whole ++ part) / 10 ^ part.length

def Token.IsWhole (t : Token) (n : Nat) : Prop :=
  t.kind = .number ∧ IsDigits t.text.toList ∧ n = digitsValue t.text.toList

theorem Token.IsWhole.operand_refused {t : Token} {n : Nat} (written : t.IsWhole n)
    (large : greatestInteger < n) (rest : List Token) :
    Reading.operand (t :: rest) =
      Reading.refuse "integer within 64-bit range" (t :: rest) := by
  obtain ⟨kind, digits, rfl⟩ := written
  have noPoint : '.' ∉ t.text.toList := digits.not_mem (by decide)
  simp [Reading.operand, Reading.tokenExpr, kind, Reading.numberValue, noPoint,
    readInt64_of_isDigits digits, large.not_ge, Except.map]

theorem Token.IsDecimal.operand {t : Token} {x : ℚ} (written : t.IsDecimal x) :
    ∃ y, IsOperand t (.literal (.float y) .number) ∧ (y.isFinite ↔ x < overflow) ∧
      (y.isFinite ∨ y = .infinite false) := by
  obtain ⟨kind, whole, part, parts, first, second, rfl⟩ := written
  refine ⟨_, .decimal kind parts first second, ?_, ofDecimal_cases _ _ _⟩
  rw [ofDecimal_isFinite_iff, zpow_neg, zpow_natCast, ← div_eq_mul_inv]

theorem operand_unique {t : Token} {e f : Expr} (first : IsOperand t e)
    (second : IsOperand t f) : e = f := by
  have read := Reading.tokenExpr_complete first
  rw [Reading.tokenExpr_complete second] at read
  exact (Except.ok.inj read).symm

theorem float_operand {t : Token} {y : Binary64} {kind : LiteralKind}
    (derived : IsOperand t (.literal (.float y) kind)) : ∃ x, t.IsDecimal x := by
  cases derived with
  | decimal kind parts first second => exact ⟨_, kind, _, _, parts, first, second, rfl⟩

def Expr.operands : Expr → List Expr
  | .compare left _ right => [left, right]
  | e => [e]

namespace Grammar

theorem expression_operands {ts : List Token} {e : Expr} (derived : IsExpression ts e) :
    ∀ o ∈ e.operands, ∃ t ∈ ts, IsOperand t o := by
  cases derived with
  | @operand t e single =>
    have alone : e.operands = [e] := by cases single <;> rfl
    simpa [alone] using single
  | compare first sign second =>
    simp only [Expr.operands, List.mem_cons, List.not_mem_nil, or_false, forall_eq_or_imp,
      forall_eq]
    exact ⟨⟨_, by simp, first⟩, ⟨_, by simp, second⟩⟩

theorem written_among {ts us : List Token} (within : ts ⊆ us) {o : Expr}
    (written : ∃ t ∈ ts, IsOperand t o) : ∃ t ∈ us, IsOperand t o := by
  obtain ⟨t, among, operand⟩ := written
  exact ⟨t, within among, operand⟩

theorem declaration_operands {ts : List Token} {d : Declaration} (derived : IsDeclaration ts d)
    {e : Expr} (initial : d.initial = some e) : ∀ o ∈ e.operands, ∃ t ∈ ts, IsOperand t o := by
  cases derived with
  | mk entity name written =>
    cases written with
    | absent => cases initial
    | present written =>
      cases initial
      cases written with
      | mk equals expression =>
        intro o inside
        refine written_among ?_ (expression_operands expression o inside)
        intro t among
        simp [among]

theorem filters_operands {ts : List Token} {es : List Expr} (derived : IsFilters ts es) :
    ∀ e ∈ es, ∀ o ∈ e.operands, ∃ t ∈ ts, IsOperand t o := by
  cases derived with
  | absent => simp
  | present word first more =>
    intro e member o inside
    rcases List.mem_cons.mp member with rfl | later
    · refine written_among ?_ (expression_operands first o inside)
      intro t among
      simp [among]
    · obtain ⟨us, within, item⟩ := more.item e later
      cases item with
      | mk word expression =>
        refine written_among ?_ (expression_operands expression o inside)
        intro t among
        exact List.mem_append_right _ (within (List.mem_cons_of_mem _ among))

end Grammar

/-- The operands that a plan of the program binds, if they are literals: what a player is
    declared with and what stands on a side of a condition. -/
def Program.Binds (p : Program) (o : Expr) : Prop :=
  ∃ q, p.query = some q ∧ ((∃ d ∈ p.declarations, d.kind = .player ∧ d.initial = some o) ∨
    ∃ e ∈ q.filters, o ∈ e.operands)

theorem bound_written {ts : List Token} {p : Program} (derived : IsProgram ts p) {v : Value}
    {kind : LiteralKind} (bound : p.Binds (.literal v kind)) :
    ∃ t ∈ ts, IsOperand t (.literal v kind) := by
  obtain ⟨q, query, bound⟩ := bound
  cases derived with
  | mk first last =>
    rcases bound with ⟨d, declared, _, initial⟩ | ⟨e, condition, side⟩
    · obtain ⟨us, within, item⟩ := first.item d declared
      have written := declaration_operands item initial _ (List.mem_singleton_self _)
      exact written_among (fun t among => List.mem_append_left _ (within among)) written
    · cases last with
      | absent => cases query
      | present asked =>
        cases query
        cases asked with
        | mk word about conditions more =>
          refine written_among ?_ (filters_operands conditions e condition _ side)
          intro t among
          simp [among]

theorem operand_literals {t : Token} {o : Expr} (derived : IsOperand t o) {v : Value} :
    v ∈ o.literals ↔ ∃ kind, .literal v kind = o := by
  cases derived <;> simp [Expr.literals, eq_comm]

theorem expression_literals {ts : List Token} {e : Expr} (derived : IsExpression ts e)
    {v : Value} : v ∈ e.literals ↔ ∃ kind, .literal v kind ∈ e.operands := by
  cases derived with
  | @operand t e single =>
    have alone : e.operands = [e] := by cases single <;> rfl
    simpa [alone] using operand_literals single
  | compare first sign second =>
    rw [Expr.literals, List.mem_append, operand_literals first, operand_literals second,
      ← exists_or]
    simp [Expr.operands]

theorem Declaration.playerValue?_eq_some_iff {d : Declaration} {v : Value} :
    d.playerValue? = some v ↔ d.kind = .player ∧ ∃ kind, d.initial = some (.literal v kind) := by
  unfold Declaration.playerValue?
  constructor
  · intro found
    split at found
    · rename_i kind initial
      cases found
      exact ⟨kind, _, initial⟩
    · cases found
  · rintro ⟨kind, literal, initial⟩
    rw [kind, initial]

section Parameters

variable {source : String} {p : Program} {r : Roster} {limit : Option UInt64} {plan : Plan}

theorem bound_of_parameter (parsed : Program.parse source = .ok p) (entered : p.roster = .ok r)
    (planned : Plan.ofQuery? r limit p.query = .ok plan) {v : Value}
    (member : v ∈ plan.parameters) :
    (∃ day, v = .string day) ∨ ∃ kind, p.Binds (.literal v kind) := by
  cases query : p.query with
  | none =>
    rw [query] at planned
    cases planned
    cases member
  | some q =>
    rw [query] at planned
    rw [parsed_parameters parsed entered query planned, List.mem_append] at member
    rcases member with player | condition
    · obtain ⟨d, declared, value⟩ := List.mem_filterMap.mp player
      obtain ⟨kind, literal, initial⟩ := Declaration.playerValue?_eq_some_iff.mp value
      exact .inr ⟨literal, q, query, .inl ⟨d, declared, kind, initial⟩⟩
    · obtain ⟨e, filter, value⟩ := List.mem_flatMap.mp condition
      unfold Expr.filterValues at value
      split at value
      · obtain ⟨s, _, day⟩ := List.mem_flatMap.mp value
        simp only [Season.days, List.mem_cons, List.not_mem_nil, or_false] at day
        rcases day with first | last
        · exact .inl ⟨_, first⟩
        · exact .inl ⟨_, last⟩
      · obtain ⟨us, derived⟩ := parsed_filters parsed query e filter
        obtain ⟨kind, side⟩ := (expression_literals derived).mp value
        exact .inr ⟨kind, q, query, .inr ⟨e, filter, side⟩⟩

theorem parameter_of_bound (parsed : Program.parse source = .ok p) (entered : p.roster = .ok r)
    (planned : Plan.ofQuery? r limit p.query = .ok plan) {v : Value} {kind : LiteralKind}
    (bound : p.Binds (.literal v kind)) (noSeason : Season.ofName? v.text = none) :
    v ∈ plan.parameters := by
  obtain ⟨q, query, bound⟩ := bound
  rw [query] at planned
  rw [parsed_parameters parsed entered query planned, List.mem_append]
  rcases bound with ⟨d, declared, player, initial⟩ | ⟨e, filter, side⟩
  · have value := Declaration.playerValue?_eq_some_iff.mpr ⟨player, kind, initial⟩
    exact .inl (List.mem_filterMap.mpr ⟨d, declared, value⟩)
  · refine .inr (List.mem_flatMap.mpr ⟨e, filter, ?_⟩)
    obtain ⟨us, derived⟩ := parsed_filters parsed query e filter
    have literal : v ∈ e.literals := (expression_literals derived).mpr ⟨kind, side⟩
    unfold Expr.filterValues
    split
    · rename_i value found
      obtain ⟨form, rfl⟩ := Expr.seasonValue?_eq_some_iff.mp found
      obtain ⟨s, named⟩ := seasonsKnown_of_planned planned value form filter
      have same : v = value := by simpa [Season.asked, Expr.literals] using literal
      rw [← same, noSeason] at named
      cases named
    · exact literal

end Parameters

def Program.BindsTooLarge (p : Program) (tokens : List Token) : Prop :=
  ∃ t ∈ tokens, ∃ o x, IsOperand t o ∧ p.Binds o ∧ t.IsDecimal x ∧ overflow ≤ x

theorem Program.Binds.tooLarge {p : Program} {tokens : List Token}
    (derived : IsProgram (sentence tokens) p) {y : Binary64} {kind : LiteralKind}
    (bound : p.Binds (.literal (.float y) kind)) (past : y.isFinite = false) :
    y = .infinite false ∧ p.BindsTooLarge tokens := by
  obtain ⟨t, among, written⟩ := bound_written derived bound
  obtain ⟨x, decimal⟩ := float_operand written
  obtain ⟨z, read, finite, form⟩ := decimal.operand
  cases operand_unique written read
  rw [past] at finite form
  have large : overflow ≤ x := by simpa using finite
  have inTokens : t ∈ tokens := List.mem_of_mem_dropLast (List.mem_filter.mp among).1
  exact ⟨by simpa using form, t, inTokens, _, x, written, bound, decimal, large⟩

theorem Program.BindsTooLarge.infinite_bound {p : Program} {tokens : List Token}
    (large : p.BindsTooLarge tokens) : p.Binds (.literal (.float (.infinite false)) .number) := by
  obtain ⟨t, _, o, x, written, bound, decimal, large⟩ := large
  obtain ⟨y, read, finite, form⟩ := decimal.operand
  cases operand_unique written read
  have past : ¬ y.isFinite := fun holds => (finite.mp holds).not_ge large
  rwa [form.resolve_left past] at bound

/- One condition, compared with any decimal. -/

def pointsAbove (numeral : String) : String := "Player p get games where p.points > " ++ numeral

def Program.pointsAbove (y : Binary64) : Program where
  declarations := [⟨.player, "p", none⟩]
  query := some ⟨.games, [.compare (.field "p" "points") .gt (.literal (.float y) .number)],
    none, none, none⟩

def beforeNumber : List Token :=
  [⟨.keyword (.entity .player), "Player", ⟨1, 1⟩⟩, ⟨.identifier, "p", ⟨1, 8⟩⟩,
   ⟨.keyword .get, "get", ⟨1, 10⟩⟩, ⟨.keyword .games, "games", ⟨1, 14⟩⟩,
   ⟨.keyword .whereWord, "where", ⟨1, 20⟩⟩, ⟨.fieldAccess, "p.points", ⟨1, 26⟩⟩,
   ⟨.comparison .gt, ">", ⟨1, 35⟩⟩]

theorem beforeNumber_lexemes :
    ∀ t ∈ beforeNumber, IsLexeme t.kind t.text ∧ t.kind ≠ .newline := by
  have scanned : scan (pointsAbove "1.0") =
      .ok (beforeNumber ++ [⟨.number, "1.0", ⟨1, 37⟩⟩, ⟨.eof, "", ⟨1, 40⟩⟩]) := by
    decide +kernel
  have kinds : ∀ t ∈ beforeNumber, t.kind ≠ .eof ∧ t.kind ≠ .newline := by decide
  intro t member
  have lexeme := tiled_lexemes (tiled_of_scan scanned) t (List.mem_append_left _ member)
  exact ⟨lexeme (kinds t member).1, (kinds t member).2⟩

theorem pointsAbove_spaced {t : Token} (number : t.kind = .number) :
    Spaced (beforeNumber ++ [t]) (pointsAbove t.text).toList := by
  have gap : IsLayout [' '] := .blank rfl .nil
  have front :=
    Spaced.next ⟨.keyword (.entity .player), "Player", ⟨1, 1⟩⟩ gap (by simp) <|
    Spaced.next ⟨.identifier, "p", ⟨1, 8⟩⟩ gap (by simp) <|
    Spaced.next ⟨.keyword .get, "get", ⟨1, 10⟩⟩ gap (by simp) <|
    Spaced.next ⟨.keyword .games, "games", ⟨1, 14⟩⟩ gap (by simp) <|
    Spaced.next ⟨.keyword .whereWord, "where", ⟨1, 20⟩⟩ gap (by simp) <|
    Spaced.next ⟨.fieldAccess, "p.points", ⟨1, 26⟩⟩ gap (by simp) <|
    Spaced.last ⟨.comparison .gt, ">", ⟨1, 35⟩⟩
  have written : t.kind.written t.text = t.text.toList := if_neg (by simp [number])
  have spaced := front.snoc (List.cons_ne_nil _ _) gap (by simp) t
  rw [written] at spaced
  -- The texts are compared as values: a rewrite would open them as literals.
  refine Eq.mpr (congrArg (Spaced _) ?_) spaced
  refine String.toList_append.trans (congrArg (· ++ t.text.toList) ?_)
  decide +kernel

theorem pointsAbove_parsed {t : Token} {y : Binary64} (number : t.kind = .number)
    (admits : t.kind.Admits t.text.toList)
    (written : IsOperand t (.literal (.float y) .number)) :
    Program.parse (pointsAbove t.text) = .ok (.pointsAbove y) := by
  refine parse_written (pointsAbove_spaced number) ?_ ?_
  · intro u member
    rcases List.mem_append.mp member with fixed | last
    · exact beforeNumber_lexemes u fixed
    · rw [List.mem_singleton.mp last]
      exact ⟨⟨admits, by rw [number]; trivial, by simp [number]⟩, by simp [number]⟩
  · have declared : Many IsDeclaration
        [⟨.keyword (.entity .player), "Player", ⟨1, 1⟩⟩, ⟨.identifier, "p", ⟨1, 8⟩⟩]
        [⟨.player, "p", none⟩] :=
      .cons (IsDeclaration.mk rfl rfl .absent) .nil
    have about : IsScope [⟨.keyword .games, "games", ⟨1, 14⟩⟩] .games := .games rfl
    have compared : IsExpression
        [⟨.fieldAccess, "p.points", ⟨1, 26⟩⟩, ⟨.comparison .gt, ">", ⟨1, 35⟩⟩, t]
        (.compare (.field "p" "points") .gt (.literal (.float y) .number)) :=
      .compare (.field rfl (by decide) (by decide)) rfl written
    have filtered := IsFilters.present
      (w := ⟨.keyword .whereWord, "where", ⟨1, 20⟩⟩) rfl compared .nil
    have asked := IsQuery.mk (g := ⟨.keyword .get, "get", ⟨1, 10⟩⟩) rfl about filtered .nil
    have derived := IsProgram.mk declared (Maybe.present asked)
    exact derived

theorem pointsAbove_compiled {settings : Settings} {t : Token} {x : ℚ}
    (decimal : t.IsDecimal x)
    (fits : (pointsAbove t.text).utf8ByteSize ≤ settings.maxSourceBytes) :
    ∃ plan y, compile settings (pointsAbove t.text) = .ok plan ∧ plan.parameters = [.float y] ∧
      (y.isFinite ↔ x < overflow) := by
  obtain ⟨y, written, finite, _⟩ := decimal.operand
  obtain ⟨number, whole, part, parts, first, second, _⟩ := decimal
  have admits : t.kind.Admits t.text.toList := by
    rw [number]
    exact .inr ⟨whole, part, parts, first, second⟩
  rw [compile, if_neg (Nat.not_lt.mpr fits), pointsAbove_parsed number admits written]
  exact ⟨_, y, rfl, rfl, finite⟩

def hugeNumber : Token :=
  ⟨.number, String.ofList ('1' :: List.replicate 309 '0' ++ ['.', '0']), ⟨1, 37⟩⟩

theorem hugeNumber_isDecimal : hugeNumber.IsDecimal (10 ^ (309 : Int)) := by
  have first : IsDigits ('1' :: List.replicate 309 '0') := by
    refine ⟨List.cons_ne_nil _ _, List.forall_mem_cons.mpr ⟨by decide, ?_⟩⟩
    intro c member
    rw [List.eq_of_mem_replicate member]
    decide
  have second : IsDigits ['0'] := ⟨by decide, List.all_eq_true.mp rfl⟩
  have digits : digitsValue ('1' :: List.replicate 309 '0' ++ ['0']) = 10 ^ 310 := by
    decide +kernel
  refine ⟨rfl, _, _, String.toList_ofList, first, second, ?_⟩
  rw [digits, List.length_singleton, pow_one, eq_div_iff (by norm_num),
    ← zpow_add_one₀ (by norm_num), Nat.cast_pow, ← zpow_natCast]
  rfl

theorem hugeNumber_compiled : ∃ plan y,
    compile .standard (pointsAbove hugeNumber.text) = .ok plan ∧ plan.parameters = [.float y] ∧
      y.isFinite = false := by
  have fits : (pointsAbove hugeNumber.text).utf8ByteSize ≤ Settings.standard.maxSourceBytes := by
    decide +kernel
  obtain ⟨plan, y, compiled, parameters, finite⟩ := pointsAbove_compiled hugeNumber_isDecimal fits
  refine ⟨plan, y, compiled, parameters, ?_⟩
  rw [← Bool.not_eq_true, finite, not_lt]
  exact overflow_le_tenPow

/-- A whole number out of range is refused wherever it is an operand, but a decimal never
    is. A plan has null among its parameters exactly when a decimal too large for a finite
    number is bound, and it stands for infinity. -/
theorem too_large_decimals_bound_as_null (t : Token) (rest : List Token) {settings : Settings}
    {source : String} {plan : Plan} (compiled : compile settings source = .ok plan) :
    (∀ n, t.IsWhole n → greatestInteger < n → Reading.operand (t :: rest) =
      Reading.refuse "integer within 64-bit range" (t :: rest)) ∧
    (∀ x, t.IsDecimal x → ∃ y,
      Reading.operand (t :: rest) = .ok (.literal (.float y) .number, rest) ∧
        (y.isFinite ↔ x < overflow)) ∧
    ∃ tokens p, scan source = .ok tokens ∧ Program.parse source = .ok p ∧
      (∀ v ∈ plan.parameters, Json.value v = "null" → v = .float (.infinite false)) ∧
      ((∃ v ∈ plan.parameters, Json.value v = "null") ↔ p.BindsTooLarge tokens) := by
  refine ⟨fun n whole large => whole.operand_refused large rest, ?_, ?_⟩
  · intro x decimal
    obtain ⟨y, read, finite, _⟩ := decimal.operand
    exact ⟨y, Reading.operand_complete read rest, finite⟩
  obtain ⟨p, r, parsed, entered, planned⟩ := compile_ok compiled
  obtain ⟨tokens, scanned, read⟩ := Reading.bind_eq_ok parsed
  have derived := (program_read_iff_derived scanned p).mp read
  have lost : ∀ v ∈ plan.parameters, Json.value v = "null" →
      v = .float (.infinite false) ∧ p.BindsTooLarge tokens := by
    intro v member null
    obtain ⟨y, rfl, past⟩ := (Json.value_eq_null_iff v).mp null
    rcases bound_of_parameter parsed entered planned member with ⟨_, day⟩ | ⟨kind, bound⟩
    · cases day
    · obtain ⟨rfl, large⟩ := bound.tooLarge derived past
      exact ⟨rfl, large⟩
  refine ⟨tokens, p, scanned, parsed, fun v member null => (lost v member null).1, ?_, ?_⟩
  · rintro ⟨v, member, null⟩
    exact (lost v member null).2
  · intro large
    have member := parameter_of_bound parsed entered planned large.infinite_bound (by decide)
    exact ⟨_, member, rfl⟩

theorem hugeNumber_bound :
    Reading.operand [⟨.number, "9223372036854775808", ⟨1, 37⟩⟩] =
      Reading.refuse "integer within 64-bit range"
        [⟨.number, "9223372036854775808", ⟨1, 37⟩⟩] ∧
    (∃ y, Reading.operand [hugeNumber] = .ok (.literal (.float y) .number, [])) ∧
    ∃ plan tokens p, compile .standard (pointsAbove hugeNumber.text) = .ok plan ∧
      scan (pointsAbove hugeNumber.text) = .ok tokens ∧
      Program.parse (pointsAbove hugeNumber.text) = .ok p ∧
      .float (.infinite false) ∈ plan.parameters ∧ p.BindsTooLarge tokens := by
  have digits : IsDigits "9223372036854775808".toList :=
    ⟨by decide +kernel, List.all_eq_true.mp (by decide +kernel)⟩
  have whole : IsWhole ⟨.number, "9223372036854775808", ⟨1, 37⟩⟩ 9223372036854775808 :=
    ⟨rfl, digits, by decide +kernel⟩
  obtain ⟨plan, z, compiled, parameters, past⟩ := hugeNumber_compiled
  obtain ⟨refused, _⟩ := too_large_decimals_bound_as_null _ [] compiled
  obtain ⟨_, read, tokens, p, scanned, parsed, form, large⟩ :=
    too_large_decimals_bound_as_null hugeNumber [] compiled
  obtain ⟨y, operand, _⟩ := read _ hugeNumber_isDecimal
  have member : Value.float z ∈ plan.parameters := by simp [parameters]
  have null := (Json.value_eq_null_iff (.float z)).mpr ⟨z, rfl, past⟩
  have infinite := form _ member null
  refine ⟨refused _ whole (by decide), ⟨y, operand⟩, plan, tokens, p, compiled, scanned,
    parsed, ?_, large.mp ⟨_, member, null⟩⟩
  rwa [infinite] at member

/-- A decimal past all finite numbers is no error, and the plan has null in its place. -/
theorem hugeNumber_silently_lost : ∃ plan,
    compile .standard (pointsAbove hugeNumber.text) = .ok plan ∧
      plan.parameters.map Json.value = ["null"] := by
  obtain ⟨plan, y, compiled, parameters, past⟩ := hugeNumber_compiled
  have null := (Json.value_eq_null_iff (.float y)).mpr ⟨y, rfl, past⟩
  exact ⟨plan, compiled, by rw [parameters, List.map_singleton, null]⟩

end BoxScore
