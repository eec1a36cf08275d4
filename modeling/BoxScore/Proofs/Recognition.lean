import BoxScore.Proofs.PhraseReading

/- Reading accepts the sentences of the grammar and no others: conditions, queries and
   declarations are read as they are derived, and so is a scanned text as a whole. -/
namespace BoxScore

namespace Reading

open Token Grammar Text

theorem moreFilters_stop {ts : List Token} (other : headKind ts ≠ .keyword .andWord) :
    moreFilters ts = .ok ([], ts) := by
  rw [moreFilters, if_neg other]

theorem moreFilters_step {ts rest last : List Token} {e : Expr} {es : List Expr}
    (word : headKind ts = .keyword .andWord) (read : expression ts.tail = .ok (e, rest))
    (more : moreFilters rest = .ok (es, last)) : moreFilters ts = .ok (e :: es, last) := by
  rw [moreFilters, if_pos word]
  split
  · rename_i failed
    rw [read] at failed
    cases failed
  · rename_i again
    rw [read] at again
    cases again
    simp [more]

theorem moreFilters_sound (ts : List Token) (admitted : Admitted ts) :
    ∀ es rest, moreFilters ts = .ok (es, rest) →
      ∃ us, ts = us ++ rest ∧ Many IsMoreFilter us es := by
  fun_induction moreFilters ts with
  | case1 ts word r failed => intro es rest read; cases read
  | case2 ts word e middle first shorter ih =>
    intro es rest read
    obtain ⟨a, conjunction, split⟩ := headKind_split word (by simp)
    obtain ⟨us, front, derived⟩ := expression_sound (admitted_tail admitted) first
    obtain ⟨⟨more, last⟩, inner, finish⟩ := bind_eq_ok read
    cases finish
    have behind : Admitted (us ++ middle) := front ▸ admitted_tail admitted
    obtain ⟨vs, back, others⟩ := ih (admitted_of_append behind) _ _ inner
    refine ⟨a :: us ++ vs, ?_, .cons (.mk conjunction derived) others⟩
    rw [split, front, back]
    simp
  | case3 ts other =>
    intro es rest read
    cases read
    exact ⟨[], rfl, .nil⟩

theorem noComparison_of_endsConditions {ts : List Token}
    (stop : endsConditions (headKind ts)) : NoComparison ts :=
  fun _ => headKind_ne_of_endsConditions stop rfl

theorem moreFilters_head {ts rest : List Token} {es : List Expr}
    (derived : Many IsMoreFilter ts es) (stop : endsConditions (headKind rest)) :
    NoComparison (ts ++ rest) := by
  cases derived with
  | nil => exact noComparison_of_endsConditions stop
  | cons first more =>
    cases first with
    | mk word expression =>
      intro op
      simp [headKind, word]

theorem moreFilters_complete {ts rest : List Token} {es : List Expr}
    (derived : Many IsMoreFilter ts es) (stop : endsConditions (headKind rest)) :
    moreFilters (ts ++ rest) = .ok (es, rest) := by
  induction derived with
  | nil => exact moreFilters_stop (headKind_ne_of_endsConditions stop rfl)
  | @cons ts us e es first more ih =>
    cases first with
    | @mk a ts e word phrase =>
      have read := expression_complete phrase (moreFilters_head more stop)
      refine moreFilters_step word ?_ ih
      simpa using read

theorem filters_sound {ts rest : List Token} {es : List Expr} (admitted : Admitted ts)
    (read : filters ts = .ok (es, rest)) : ∃ us, ts = us ++ rest ∧ IsFilters us es := by
  unfold filters at read
  split at read
  · rename_i head
    obtain ⟨w, word, split⟩ := headKind_split head (by simp)
    obtain ⟨⟨e, middle⟩, first, after⟩ := bind_eq_ok read
    obtain ⟨⟨more, last⟩, second, finish⟩ := bind_eq_ok after
    obtain ⟨us, front, derived⟩ := expression_sound (admitted_tail admitted) first
    have behind : Admitted (us ++ middle) := front ▸ admitted_tail admitted
    obtain ⟨vs, back, others⟩ := moreFilters_sound _ (admitted_of_append behind) _ _ second
    cases finish
    refine ⟨w :: us ++ vs, ?_, .present word derived others⟩
    rw [split, front, back]
    simp
  · cases read
    exact ⟨[], rfl, .absent⟩

theorem filters_complete {ts rest : List Token} {es : List Expr} (derived : IsFilters ts es)
    (stop : endsConditions (headKind rest)) : filters (ts ++ rest) = .ok (es, rest) := by
  cases derived with
  | absent =>
    have other : headKind rest ≠ .keyword .whereWord := headKind_ne_of_endsConditions stop rfl
    simp [filters, other]
  | present word first more =>
    have second := expression_complete first (moreFilters_head more stop)
    have third := moreFilters_complete more stop
    simp [filters, headKind, word, second, third]

theorem scope_sound {ts rest : List Token} {s : Scope} (read : scope ts = .ok (s, rest)) :
    ∃ us, ts = us ++ rest ∧ IsScope us s := by
  cases ts with
  | nil => cases read
  | cons t ts =>
    simp only [scope] at read
    split at read
    · rename_i average
      obtain ⟨⟨l, afterLeft⟩, first, afterFirst⟩ := bind_eq_ok read
      obtain ⟨⟨g, afterGames⟩, second, afterSecond⟩ := bind_eq_ok afterFirst
      obtain ⟨⟨r, last⟩, third, finish⟩ := bind_eq_ok afterSecond
      obtain ⟨left, one⟩ := take_sound first
      obtain ⟨games, two⟩ := take_sound second
      obtain ⟨right, three⟩ := take_sound third
      cases finish
      refine ⟨[t, l, g, r], ?_, .averageGames average left games right⟩
      simp only at two three
      rw [one, two, three]
      rfl
    · cases read; exact ⟨[t], rfl, .games ‹_›⟩
    · cases read; exact ⟨[t], rfl, .seasons ‹_›⟩
    · cases read; exact ⟨[t], rfl, .careers ‹_›⟩
    · cases read; exact ⟨[t], rfl, .named ‹_›⟩
    · cases read

theorem scope_complete {ts : List Token} {s : Scope} (derived : IsScope ts s)
    (rest : List Token) : scope (ts ++ rest) = .ok (s, rest) := by
  cases derived with
  | games word => simp [scope, word]
  | seasons word => simp [scope, word]
  | careers word => simp [scope, word]
  | averageGames average left games right => simp [scope, average, take, left, games, right]
  | named name => simp [scope, name]

theorem foldl_put (cs : List Clause) (q : Query) : cs.foldl Clause.put q =
    ⟨q.scope, q.filters, (cs.filterMap Clause.selection?).getLast?.or q.selection,
      (cs.filterMap Clause.order?).getLast?.or q.order,
      (cs.filterMap Clause.limit?).getLast?.or q.limit⟩ := by
  induction cs generalizing q with
  | nil => rfl
  | cons c cs ih =>
    rw [List.foldl_cons, ih]
    cases c with
    | selection s => simp [Clause.put, Clause.selection?, Clause.order?, Clause.limit?,
        List.getLast?_cons, Option.or_some]
    | order o => simp [Clause.put, Clause.selection?, Clause.order?, Clause.limit?,
        List.getLast?_cons, Option.or_some]
    | limit n => simp [Clause.put, Clause.selection?, Clause.order?, Clause.limit?,
        List.getLast?_cons, Option.or_some]

theorem query?_sound {ts rest : List Token} {q : Option Query} (admitted : Admitted ts)
    (read : query? ts = .ok (q, rest)) : ∃ us, ts = us ++ rest ∧ Maybe IsQuery us q := by
  unfold query? at read
  split at read
  · rename_i head
    obtain ⟨g, word, split⟩ := headKind_split head (by simp)
    obtain ⟨⟨q, last⟩, inner, finish⟩ := bind_eq_ok read
    cases finish
    obtain ⟨⟨s, afterScope⟩, first, afterFirst⟩ := bind_eq_ok inner
    obtain ⟨⟨es, afterFilters⟩, second, afterSecond⟩ := bind_eq_ok afterFirst
    obtain ⟨⟨cs, afterClauses⟩, third, done⟩ := bind_eq_ok afterSecond
    obtain ⟨us, one, about⟩ := scope_sound first
    have behind : Admitted (us ++ afterScope) := one ▸ admitted_tail admitted
    obtain ⟨vs, two, conditions⟩ := filters_sound (admitted_of_append behind) second
    have behind' : Admitted (vs ++ afterFilters) := two ▸ admitted_of_append behind
    obtain ⟨ws, three, more⟩ := clauses_sound _ (admitted_of_append behind') _ _ third
    cases done
    refine ⟨g :: us ++ vs ++ ws, ?_, .present ?_⟩
    · rw [split, one, two, three]
      simp
    · rw [foldl_put]
      simpa using IsQuery.mk word about conditions more
  · cases read
    exact ⟨[], rfl, .absent⟩

theorem query?_complete {ts rest : List Token} {q : Option Query} (derived : Maybe IsQuery ts q)
    (finish : headKind rest = .eof) : query? (ts ++ rest) = .ok (q, rest) := by
  cases derived with
  | absent => simp [query?, finish]
  | present written =>
    cases written with
    | @mk g us vs ws s es cs word about conditions more =>
      have stop := clauses_head more finish
      have second := filters_complete conditions stop
      have third := clauses_complete more finish
      simp [query?, headKind, word, query, scope_complete about, second, third, foldl_put]

theorem declaration_sound {kind : Entity} {ts rest : List Token} {d : Declaration}
    (admitted : Admitted ts) (read : declaration kind ts = .ok (d, rest)) :
    ∃ n us e, ts = n :: us ++ rest ∧ n.kind = .identifier ∧ Maybe IsInitial us e ∧
      d = ⟨kind, n.text, e⟩ := by
  obtain ⟨⟨n, middle⟩, first, after⟩ := bind_eq_ok read
  obtain ⟨name, front⟩ := take_sound first
  simp only at after
  split at after
  · rename_i head
    obtain ⟨o, equals, split⟩ := headKind_split head (by simp)
    obtain ⟨⟨e, last⟩, second, finish⟩ := bind_eq_ok after
    have behind : Admitted middle.tail := by
      rw [front] at admitted
      exact admitted_tail (admitted_tail admitted)
    obtain ⟨us, back, derived⟩ := expression_sound behind second
    cases finish
    refine ⟨n, o :: us, some e, ?_, name, .present (.mk equals derived), rfl⟩
    rw [front, split, back]
    simp
  · cases after
    exact ⟨n, [], none, front, name, .absent, rfl⟩

theorem declaration_complete {kind : Entity} {n : Token} {ts rest : List Token} {e : Option Expr}
    (name : n.kind = .identifier) (initial : Maybe IsInitial ts e) (stop : NoComparison rest) :
    declaration kind (n :: ts ++ rest) = .ok (⟨kind, n.text, e⟩, rest) := by
  cases initial with
  | absent => simp [declaration, take, name, stop .eq]
  | present written =>
    cases written with
    | mk equals phrase =>
      simp [declaration, take, name, headKind, equals, expression_complete phrase stop]

theorem declarations_stop {ts : List Token} (none : (headKind ts).entity? = none) :
    declarations ts = .ok ([], ts) := by
  rw [declarations]
  split
  · rfl
  · rename_i some
    rw [none] at some
    cases some

theorem declarations_step {ts rest last : List Token} {kind : Entity} {d : Declaration}
    {ds : List Declaration} (head : (headKind ts).entity? = some kind)
    (read : declaration kind ts.tail = .ok (d, rest))
    (more : declarations rest = .ok (ds, last)) : declarations ts = .ok (d :: ds, last) := by
  rw [declarations]
  split
  · rename_i none
    rw [head] at none
    cases none
  · rename_i same
    rw [head] at same
    cases same
    split
    · rename_i failed
      rw [read] at failed
      cases failed
    · rename_i again
      rw [read] at again
      cases again
      simp [more]

theorem declarations_sound (ts : List Token) (admitted : Admitted ts) :
    ∀ ds rest, declarations ts = .ok (ds, rest) →
      ∃ us, ts = us ++ rest ∧ Many IsDeclaration us ds := by
  fun_induction declarations ts with
  | case1 ts none =>
    intro ds rest read
    cases read
    exact ⟨[], rfl, .nil⟩
  | case2 ts kind head r failed => intro ds rest read; cases read
  | case3 ts kind head d middle first shorter ih =>
    intro ds rest read
    obtain ⟨k, entity, split⟩ := entity?_split head
    obtain ⟨n, us, e, front, name, initial, rfl⟩ :=
      declaration_sound (admitted_tail admitted) first
    obtain ⟨⟨more, last⟩, inner, finish⟩ := bind_eq_ok read
    cases finish
    have behind : Admitted (n :: us ++ middle) := front ▸ admitted_tail admitted
    obtain ⟨vs, back, others⟩ := ih (admitted_of_append behind) _ _ inner
    refine ⟨k :: n :: us ++ vs, ?_, .cons (.mk entity name initial) others⟩
    rw [split, front, back]
    simp

theorem declarations_head {ts rest : List Token} {ds : List Declaration}
    (derived : Many IsDeclaration ts ds) (stop : NoComparison rest) :
    NoComparison (ts ++ rest) := by
  cases derived with
  | nil => exact stop
  | cons first more =>
    cases first with
    | mk entity name initial =>
      intro op
      simp [headKind, entity]

theorem declarations_complete {ts rest : List Token} {ds : List Declaration}
    (derived : Many IsDeclaration ts ds) (stop : NoComparison rest)
    (none : (headKind rest).entity? = none) : declarations (ts ++ rest) = .ok (ds, rest) := by
  induction derived with
  | nil => exact declarations_stop none
  | @cons ts us d ds first more ih =>
    cases first with
    | @mk k n ts kind e entity name initial =>
      have head : (headKind (k :: n :: ts ++ us ++ rest)).entity? = some kind := by
        simp [headKind, entity, Kind.entity?]
      have read : declaration kind (n :: ts ++ (us ++ rest)) = .ok (⟨kind, n.text, e⟩, us ++ rest) :=
        declaration_complete name initial (declarations_head more stop)
      refine declarations_step head ?_ ih
      simpa using read

theorem program_sound {ts rest : List Token} {p : Program} (admitted : Admitted ts)
    (read : program ts = .ok (p, rest)) :
    ∃ us, ts = us ++ rest ∧ headKind rest = .eof ∧ IsProgram us p := by
  obtain ⟨⟨ds, middle⟩, first, afterFirst⟩ := bind_eq_ok read
  obtain ⟨⟨q, last⟩, second, afterSecond⟩ := bind_eq_ok afterFirst
  obtain ⟨us, front, declared⟩ := declarations_sound _ admitted _ _ first
  have behind : Admitted (us ++ middle) := front ▸ admitted
  obtain ⟨vs, back, asked⟩ := query?_sound (admitted_of_append behind) second
  simp only at afterSecond
  split at afterSecond
  · rename_i finish
    cases afterSecond
    refine ⟨us ++ vs, ?_, finish, .mk declared asked⟩
    rw [front, back]
    simp
  · cases afterSecond

theorem program_complete {ts rest : List Token} {p : Program} (derived : IsProgram ts p)
    (finish : headKind rest = .eof) : program (ts ++ rest) = .ok (p, rest) := by
  cases derived with
  | @mk us vs ds q declared asked =>
    have head : headKind (vs ++ rest) = .eof ∨ headKind (vs ++ rest) = .keyword .get := by
      cases asked with
      | absent => exact Or.inl finish
      | present written =>
        cases written with
        | mk word about conditions more => exact Or.inr (by simp [headKind, word])
    have stop : NoComparison (vs ++ rest) := by
      intro op
      rcases head with same | same <;> simp [same]
    have none : (headKind (vs ++ rest)).entity? = none := by
      rcases head with same | same <;> simp [same, Kind.entity?]
    have first := declarations_complete declared stop none
    have second := query?_complete asked finish
    simp [program, first, second, finish]

end Reading

open Grammar

def Token.sentence (tokens : List Token) : List Token :=
  tokens.dropLast.filter (·.kind ≠ .newline)

theorem sentence_classes {source : String} {tokens : List Token}
    (scanned : Token.scan source = .ok tokens) :
    ∀ t ∈ Token.sentence tokens, t.kind.Admits t.text.toList ∧ t.kind ≠ .eof := by
  obtain ⟨front, last, rfl, classes⟩ := Token.scan_tokens scanned
  intro t member
  simp only [Token.sentence, List.dropLast_concat] at member
  exact classes t (List.mem_filter.mp member).1

theorem ahead_of_scanned {source : String} {tokens : List Token}
    (scanned : Token.scan source = .ok tokens) :
    (TokenStream.ofTokens tokens).ahead = Token.sentence tokens := by
  obtain ⟨front, last, rfl, classes⟩ := Token.scan_tokens scanned
  simp [TokenStream.ahead_ofTokens, TokenStream.closed, TokenStream.words, Token.sentence]

theorem TokenStream.program_eq_ok {s : TokenStream} {p : Program} :
    s.program.1 = .ok p ↔ ∃ rest, Reading.program s.ahead = .ok (p, rest) := by
  unfold TokenStream.program
  split
  · rename_i q rest read
    simp [read]
  · rename_i r failed
    simp [failed]

/-- Tokens without the end of input are read to the last one or not at all. -/
theorem derived_of_read {ts rest : List Token} {p : Program}
    (classes : ∀ t ∈ ts, t.kind.Admits t.text.toList ∧ t.kind ≠ .eof)
    (read : Reading.program ts = .ok (p, rest)) : IsProgram ts p := by
  obtain ⟨us, split, finish, derived⟩ :=
    Reading.program_sound (fun t member => (classes t member).1) read
  cases rest with
  | nil => rwa [split, List.append_nil]
  | cons t rest =>
    have member : t ∈ ts := by
      rw [split]
      simp
    exact absurd finish (classes t member).2

theorem parse_derived {source : String} {p : Program} (parsed : Program.parse source = .ok p) :
    ∃ ts, Reading.Admitted ts ∧ IsProgram ts p := by
  obtain ⟨tokens, scanned, read⟩ := Reading.bind_eq_ok parsed
  obtain ⟨rest, whole⟩ := TokenStream.program_eq_ok.mp read
  rw [ahead_of_scanned scanned] at whole
  have classes := sentence_classes scanned
  exact ⟨_, fun t member => (classes t member).1, derived_of_read classes whole⟩

/-- A scanned text is read as a program exactly when its tokens derive it, and its tree
    is the one that they derive. -/
theorem program_read_iff_derived {source : String} {tokens : List Token}
    (scanned : Token.scan source = .ok tokens) (p : Program) :
    (TokenStream.ofTokens tokens).program.1 = .ok p ↔ IsProgram (Token.sentence tokens) p := by
  rw [TokenStream.program_eq_ok, ahead_of_scanned scanned]
  constructor
  · rintro ⟨rest, read⟩
    exact derived_of_read (sentence_classes scanned) read
  · intro derived
    have read := Reading.program_complete derived (show Reading.headKind [] = .eof from rfl)
    exact ⟨[], by simpa using read⟩

theorem repeated_limit_derived :
    ∃ tokens, Token.scan "get games limit 5\nmost points limit 7" = .ok tokens ∧
      IsProgram (Token.sentence tokens)
        ⟨[], some ⟨.games, [], none, some ⟨"points", false⟩, some 7⟩⟩ := by
  have scanned : Token.scan "get games limit 5\nmost points limit 7" = .ok
      [⟨.keyword .get, "get", ⟨1, 1⟩⟩, ⟨.keyword .games, "games", ⟨1, 5⟩⟩,
       ⟨.keyword .limit, "limit", ⟨1, 11⟩⟩, ⟨.number, "5", ⟨1, 17⟩⟩, ⟨.newline, "\n", ⟨1, 18⟩⟩,
       ⟨.keyword .most, "most", ⟨2, 1⟩⟩, ⟨.identifier, "points", ⟨2, 6⟩⟩,
       ⟨.keyword .limit, "limit", ⟨2, 13⟩⟩, ⟨.number, "7", ⟨2, 19⟩⟩, ⟨.eof, "", ⟨2, 20⟩⟩] := by
    decide +kernel
  exact ⟨_, scanned, (program_read_iff_derived scanned _).mp (by decide +kernel)⟩

end BoxScore
