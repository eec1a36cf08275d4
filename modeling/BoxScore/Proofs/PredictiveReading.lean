import BoxScore.Proofs.Lookahead

/- Every reader of the language settles what it does one token ahead, and so does the
   reader of whole programs. -/
namespace BoxScore.Reading

open Token

theorem isLexeme_one : IsLexeme .number "1" where
  admitted := Or.inl ⟨by decide, List.all_eq_true.mp (by decide)⟩
  sorted := trivial
  notEnd := by simp

theorem exists_isLexeme (kind : Kind) (word : kind ≠ .newline) (notEnd : kind ≠ .eof) :
    ∃ text, IsLexeme kind text := by
  cases kind with
  | keyword w => exact ⟨w.spelling, rfl, trivial, notEnd⟩
  | comparison op => exact ⟨op.symbol, rfl, trivial, notEnd⟩
  | punctuation mark => exact ⟨mark.symbol, rfl, trivial, notEnd⟩
  | number => exact ⟨"1", isLexeme_one⟩
  | string => exact ⟨"", by simp [Kind.Admits], trivial, notEnd⟩
  | canonicalName =>
    exact ⟨"X", ⟨'X', [], rfl, by decide, by simp⟩,
      ⟨not_reserved (by decide), Or.inr ⟨'X', rfl, by decide⟩⟩, notEnd⟩
  | date => exact ⟨"2024-01-01", rfl, trivial, notEnd⟩
  | identifier =>
    exact ⟨"x", ⟨'x', [], rfl, by decide, by simp⟩, ⟨not_reserved (by decide), by simp [IsProper]⟩,
      notEnd⟩
  | fieldAccess =>
    exact ⟨"x.y", ⟨['x'], ['y'], rfl, ⟨'x', [], rfl, by decide, by simp⟩,
      ⟨'y', [], rfl, by decide, by simp⟩⟩, trivial, notEnd⟩
  | newline => contradiction
  | eof => contradiction

theorem take_single (kind : Kind) (expected : String) (word : kind ≠ .newline)
    (notEnd : kind ≠ .eof) : Single (take kind expected) := by
  have equal : take kind expected =
      one (fun t => if t.kind = kind then .ok t else .error expected) expected := by
    funext ts
    cases ts with
    | nil => rfl
    | cons t ts =>
      simp only [take, one]
      split <;> rfl
  obtain ⟨text, lexeme⟩ := exists_isLexeme kind word notEnd
  rw [equal]
  refine one_single (t := ⟨kind, text, .start⟩) (fun t finish => if_neg ?_) lexeme word
    (if_pos rfl)
  rw [finish]
  exact notEnd.symm

theorem identifier_single (expected : String) : Single (take .identifier expected) :=
  take_single .identifier expected (by simp) (by simp)

theorem operand_single : Single operand := by
  have equal : operand = one tokenExpr "expression" := by
    funext ts
    cases ts with
    | nil => rfl
    | cons t ts => cases outcome : tokenExpr t <;> simp [operand, one, outcome]
  obtain ⟨text, lexeme⟩ := exists_isLexeme .identifier (by simp) (by simp)
  rw [equal]
  exact one_single (t := ⟨.identifier, text, .start⟩)
    (fun t finish => by simp [tokenExpr, finish]) lexeme (by simp) rfl

def countValue (t : Token) : Except String UInt64 :=
  if t.kind = .number then
    match Text.readUInt64 t.text with
    | some n => .ok n
    | none => .error "whole row count after 'limit'"
  else .error "number after 'limit'"

theorem rowCount_single : Single rowCount := by
  have equal : rowCount = one countValue "number after 'limit'" := by
    funext ts
    cases ts with
    | nil => rfl
    | cons t ts =>
      by_cases number : t.kind = .number
      · cases count : Text.readUInt64 t.text <;> simp [rowCount, one, countValue, number, count]
      · simp [rowCount, one, countValue, number]
  rw [equal]
  exact one_single (t := ⟨.number, "1", .start⟩) (fun t finish => by simp [countValue, finish])
    isLexeme_one (by simp) (a := 1) (by decide)

/- Expressions and clauses. -/

def rightSide (left : Expr) (t : Token) : Option (Reader Expr) :=
  match t.kind with
  | .comparison op => some fun us => do
    let (right, rest) ← operand us
    return (.compare left op right, rest)
  | _ => none

theorem rightSide_opens (left : Expr) : Opens (rightSide left) where
  notEnd t finish := by simp [rightSide, finish]
  predictive t g chosen := by
    unfold rightSide at chosen
    split at chosen
    · cases chosen
      exact operand_single.bind fun right => (optional_pure _).predictive
    · cases chosen

theorem expression_predictive : Predictive expression := by
  refine operand_single.bind fun left => ?_
  refine ((rightSide_opens left).optional (a := left) fun us => ?_).predictive
  cases us with
  | nil => rfl
  | cons t us =>
    cases kind : t.kind <;> simp [rightSide, headKind, kind]

theorem nextField_predictive : Predictive fun us => do
    let (field, rest) ← take .identifier "field name after ','" us
    return (field.text, rest) :=
  (identifier_single _).bind fun _ => (optional_pure _).predictive

theorem moreFields_optional : Optional moreFields :=
  moreFields_repeats.optional_behind (.punctuation .comma) (by simp) nextField_predictive
    fun _ => rfl

def switchValue (t : Token) : Except String Bool :=
  match t.kind with
  | .keyword .falseWord => .ok false
  | .keyword .trueWord => .ok true
  | _ => .error "'true' or 'false' after 'basic='"

theorem one_switchValue (us : List Token) :
    one switchValue "'true' or 'false' after 'basic='" us =
      match headKind us with
      | .keyword .falseWord => .ok (false, us.tail)
      | .keyword .trueWord => .ok (true, us.tail)
      | _ => refuse "'true' or 'false' after 'basic='" us := by
  cases us with
  | nil => rfl
  | cons t us =>
    by_cases off : t.kind = .keyword .falseWord
    · simp [one, switchValue, headKind, off]
    · by_cases on : t.kind = .keyword .trueWord
      · simp [one, switchValue, headKind, on]
      · simp [one, switchValue, headKind]

theorem switchValue_single : Single (one switchValue "'true' or 'false' after 'basic='") :=
  one_single (t := ⟨.keyword .trueWord, "true", .start⟩)
    (fun t finish => by simp [switchValue, finish]) ⟨rfl, trivial, by simp⟩ (by simp) rfl

theorem switch_predictive : Predictive (fun us => do
    let (_, rest) ← take (.comparison .eq) "'=' after 'basic'" us
    one switchValue "'true' or 'false' after 'basic='" rest) :=
  (take_single (.comparison .eq) _ (by simp) (by simp)).bind fun _ => switchValue_single.predictive

theorem basicSwitch_optional : Optional basicSwitch := by
  refine optional_behind (.keyword .basic) (by simp) switch_predictive (a := true) fun us => ?_
  simp only [basicSwitch, one_switchValue]
  rfl

theorem selection_predictive : Predictive selection := by
  refine (identifier_single _).bind fun field => Optional.predictive ?_
  refine moreFields_optional.bind fun fields => ?_
  exact basicSwitch_optional.bind fun basic => optional_pure _

def orderWord (t : Token) : Except String Bool :=
  match t.kind with
  | .keyword .most => .ok false
  | .keyword .least => .ok true
  | _ => .error "'most' or 'least'"

theorem rowOrder_eq (us : List Token) :
    rowOrder us = one orderWord "'most' or 'least'" us >>= fun (least, rest) => do
      let (field, rest) ← take .identifier "field name after order keyword" rest
      return (⟨field.text, least⟩, rest) := by
  cases us with
  | nil => rfl
  | cons t us =>
    by_cases most : t.kind = .keyword .most
    · simp [rowOrder, one, orderWord, headKind, most]
    · by_cases least : t.kind = .keyword .least
      · simp [rowOrder, one, orderWord, headKind, least]
      · simp [rowOrder, one, orderWord, headKind]

theorem orderWord_single : Single (one orderWord "'most' or 'least'") :=
  one_single (t := ⟨.keyword .most, "most", .start⟩)
    (fun t finish => by simp [orderWord, finish]) ⟨rfl, trivial, by simp⟩ (by simp) rfl

theorem rowOrder_predictive : Predictive rowOrder := by
  rw [funext rowOrder_eq]
  refine orderWord_single.bind fun least => ?_
  exact (identifier_single _).bind fun field => (optional_pure _).predictive

def clauseBehind (t : Token) : Option (Reader Clause) :=
  match t.kind with
  | .keyword .select => some fun us => do
    let (s, rest) ← selection us
    return (.selection s, rest)
  | .keyword .order => some fun us => do
    let (_, rest) ← take (.keyword .byWord) "'by' after 'order'" us
    let (o, rest) ← rowOrder rest
    return (.order o, rest)
  | .keyword .most => some fun us => do
    let (field, rest) ← take .identifier "field name after order keyword" us
    return (.order ⟨field.text, false⟩, rest)
  | .keyword .least => some fun us => do
    let (field, rest) ← take .identifier "field name after order keyword" us
    return (.order ⟨field.text, true⟩, rest)
  | .keyword .limit => some fun us => do
    let (n, rest) ← rowCount us
    return (.limit n, rest)
  | _ => none

theorem clauseBehind_opens : Opens clauseBehind where
  notEnd t finish := by simp [clauseBehind, finish]
  predictive t g chosen := by
    unfold clauseBehind at chosen
    split at chosen
    · cases chosen
      exact selection_predictive.bind fun s => optional_pure _
    · cases chosen
      refine (take_single (.keyword .byWord) _ (by simp) (by simp)).bind fun word => ?_
      exact rowOrder_predictive.bind fun o => optional_pure _
    · cases chosen
      exact (identifier_single _).bind fun field => (optional_pure _).predictive
    · cases chosen
      exact (identifier_single _).bind fun field => (optional_pure _).predictive
    · cases chosen
      exact rowCount_single.bind fun n => (optional_pure _).predictive
    · cases chosen

theorem clause?_eq (us : List Token) :
    clause? us = (us.head?.bind clauseBehind).map (· us.tail) := by
  cases us with
  | nil => rfl
  | cons t us =>
    simp only [List.head?_cons, Option.bind_some, clauseBehind]
    split <;> simp_all [clause?, headKind, rowOrder]

theorem clauses_optional : Optional clauses :=
  clauses_repeats.optional clauseBehind_opens clause?_eq

/- Conditions, queries and declarations. -/

theorem moreFilters_optional : Optional moreFilters :=
  moreFilters_repeats.optional_behind (.keyword .andWord) (by simp) expression_predictive
    fun _ => rfl

theorem conditions_predictive : Predictive fun us => do
    let (e, rest) ← expression us
    let (es, rest) ← moreFilters rest
    return (e :: es, rest) :=
  expression_predictive.bind fun _ => moreFilters_optional.bind fun _ => optional_pure _

theorem filters_optional : Optional filters :=
  optional_behind (.keyword .whereWord) (by simp) conditions_predictive fun _ => rfl

def scopeWord (t : Token) : Except String (Option Scope) :=
  match t.kind with
  | .keyword (.aggregate .avg) => .ok none
  | .keyword .games => .ok (some .games)
  | .keyword .seasons => .ok (some .seasons)
  | .keyword .careers => .ok (some .careers)
  | .identifier => .ok (some (.named t.text))
  | _ => .error "scope after 'get'"

theorem scope_eq (us : List Token) :
    scope us = one scopeWord "scope after 'get'" us >>= fun (found, rest) =>
      match found with
      | some s => .ok (s, rest)
      | none => do
        let (_, rest) ← take (.punctuation .leftParen) "'(' after 'avg'" rest
        let (_, rest) ← take (.keyword .games) "'games' after 'avg('" rest
        let (_, rest) ← take (.punctuation .rightParen) "')' after 'games'" rest
        return (.averageGames, rest) := by
  cases us with
  | nil => rfl
  | cons t us =>
    simp only [scope]
    split <;> simp_all [one, scopeWord]

theorem scopeWord_single : Single (one scopeWord "scope after 'get'") :=
  one_single (t := ⟨.keyword .games, "games", .start⟩)
    (fun t finish => by simp [scopeWord, finish]) ⟨rfl, trivial, by simp⟩ (by simp) rfl

theorem scope_predictive : Predictive scope := by
  rw [funext scope_eq]
  refine scopeWord_single.bind fun found => ?_
  cases found with
  | some s => exact (optional_pure s).predictive
  | none =>
    refine (take_single (.punctuation .leftParen) _ (by simp) (by simp)).bind fun left => ?_
    refine (take_single (.keyword .games) _ (by simp) (by simp)).bind fun games => ?_
    refine (take_single (.punctuation .rightParen) _ (by simp) (by simp)).bind fun right => ?_
    exact (optional_pure _).predictive

theorem query_predictive : Predictive query := by
  refine scope_predictive.bind fun s => ?_
  refine filters_optional.bind fun es => ?_
  exact clauses_optional.bind fun cs => optional_pure _

theorem present_predictive : Predictive fun us => do
    let (q, rest) ← query us
    return (some q, rest) :=
  query_predictive.bind fun _ => optional_pure _

theorem query?_optional : Optional query? :=
  optional_behind (.keyword .get) (by simp) present_predictive fun _ => rfl

theorem initial_predictive (kind : Entity) (name : String) : Predictive fun us => do
    let (e, rest) ← expression us
    return (Declaration.mk kind name (some e), rest) :=
  expression_predictive.bind fun _ => optional_pure _

theorem declaration_predictive (kind : Entity) : Predictive (declaration kind) := by
  refine (identifier_single _).bind fun name => Optional.predictive ?_
  exact optional_behind (.comparison .eq) (by simp) (initial_predictive kind name.text)
    fun us => rfl

theorem declaration_opens : Opens fun t : Token => t.kind.entity?.map declaration where
  notEnd t finish := by simp [finish, Kind.entity?]
  predictive t g chosen := by
    obtain ⟨kind, _, rfl⟩ := Option.map_eq_some_iff.mp chosen
    exact declaration_predictive kind

theorem nextDeclaration?_eq (us : List Token) :
    nextDeclaration? us =
      (us.head?.bind fun t : Token => t.kind.entity?.map declaration).map (· us.tail) := by
  cases us with
  | nil => rfl
  | cons t us => simp [nextDeclaration?, headKind, Function.comp_def]

theorem declarations_optional : Optional declarations :=
  declarations_repeats.optional declaration_opens nextDeclaration?_eq

def programParts : Reader Program := fun us => do
  let (ds, rest) ← declarations us
  let (q, rest) ← query? rest
  return (⟨ds, q⟩, rest)

def expectedBehind (p : Program) : String :=
  if p.query.isSome then "end of input" else "declaration or 'get'"

theorem programParts_optional : Optional programParts :=
  declarations_optional.bind fun _ => query?_optional.bind fun _ => optional_pure _

theorem program_eq (us : List Token) : program us = programParts us >>= fun (p, rest) =>
    if headKind rest = .eof then .ok (p, rest) else refuse (expectedBehind p) rest := by
  simp only [program, programParts, expectedBehind, bind_assoc, pure_eq_ok, ok_bind]

theorem program_finish {ts rest : List Token} {p : Program}
    (read : program ts = .ok (p, rest)) : headKind rest = .eof := by
  obtain ⟨⟨ds, middle⟩, _, afterFirst⟩ := bind_eq_ok read
  obtain ⟨⟨q, last⟩, _, afterSecond⟩ := bind_eq_ok afterFirst
  simp only at afterSecond
  split at afterSecond
  · cases afterSecond
    assumption
  · cases afterSecond

/-- A program ends at the end of input; a token refused behind its parts stands where it
    could have ended. -/
theorem program_settled (ts : List Token) : Settled program ts := by
  cases (programParts_optional.deferred ts).settled with
  | @read p front rest split again =>
    have known : ∀ us, Follows rest us → program (front ++ us) =
        if headKind us = .eof then .ok (p, us) else refuse (expectedBehind p) us := by
      intro us follows
      rw [program_eq, again us follows]
      rfl
    by_cases finish : headKind rest = .eof
    · refine .read p front split fun us follows => ?_
      have finishToo : headKind us = .eof := by
        rcases follows with same | reached
        · rw [← headKind_of_head? same, finish]
        · exact reached
      rw [known us follows, if_pos finishToo]
    · refine .refused (expectedBehind p) front split (fun us head => ?_) ⟨[], p, writable_nil, ?_⟩
      · rw [known us head.follows, if_neg (head.headKind_eq ▸ finish)]
        rfl
      · rw [known [] (Or.inr rfl)]
        rfl
  | @refused expected front rest split again continued =>
    obtain ⟨more, p, written, read⟩ := continued
    refine .refused expected front split (fun us head => ?_) ⟨more, p, written, ?_⟩
    · rw [program_eq, again us head]
      rfl
    · rw [program_eq, read]
      rfl

/-- Where reading refuses a token, it does so whatever follows that token, and the tokens
    in front of it begin a program. -/
theorem program_refused {ts rest : List Token} {expected : String}
    (failed : program ts = .error ⟨expected, rest⟩) : ∃ front, ts = front ++ rest ∧
      (∀ us, SameHead rest us → program (front ++ us) = .error ⟨expected, us⟩) ∧
      ∃ more p, Writable more ∧ program (front ++ more) = .ok (p, []) := by
  cases program_settled ts with
  | @read p front last split again =>
    rw [split, again last (Or.inl rfl)] at failed
    cases failed
  | @refused wanted front last split again continued =>
    rw [split, again last (Or.inl rfl)] at failed
    cases failed
    exact ⟨front, split, again, continued⟩

end BoxScore.Reading
