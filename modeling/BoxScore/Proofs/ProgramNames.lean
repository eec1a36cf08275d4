import BoxScore.Proofs.Recognition

/- The names that a program writes down: its variables, their fields, the columns it
   shows and sorts by. Read from a text, each of them is a word. -/
namespace BoxScore

open Token Grammar Reading

def Expr.names : Expr → List String
  | .compare left _ right => left.names ++ right.names
  | .field owner f => [owner, f]
  | .literal _ _ => []
  | .name text => [text]
  | .aggregate _ argument => argument.names

def Declaration.names (d : Declaration) : List String := d.name :: d.initial.toList.flatMap Expr.names

def Reading.Clause.names : Clause → List String
  | .selection s => s.fields
  | .order o => [o.field]
  | .limit _ => []

def Query.names (q : Query) : List String :=
  q.filters.flatMap Expr.names ++ q.selection.toList.flatMap Selection.fields ++
    q.order.toList.map RowOrder.field

def Program.names (p : Program) : List String :=
  p.declarations.flatMap Declaration.names ++ p.query.toList.flatMap Query.names

namespace Grammar

theorem isWord_of_isName {text : String} (name : IsName text.toList) : isWord text := by
  obtain ⟨c, rest, chars, letter, later⟩ := name
  rw [isWord, chars, List.all_cons, isNameChar_of_isAlpha letter, Bool.true_and]
  exact List.all_eq_true.mpr later

theorem identifier_isWord {t : Token} (kind : t.kind = .identifier)
    (admits : t.kind.Admits t.text.toList) : isWord t.text := by
  rw [kind] at admits
  exact isWord_of_isName admits

theorem keyword_isWord {t : Token} {word : Keyword} (kind : t.kind = .keyword word)
    (spelled : isWord word.spelling) (admits : t.kind.Admits t.text.toList) : isWord t.text := by
  rw [kind] at admits
  rwa [String.toList_inj.mp admits]

theorem operand_words {t : Token} {e : Expr} (derived : IsOperand t e)
    (admits : t.kind.Admits t.text.toList) : ∀ n ∈ e.names, isWord n := by
  cases derived with
  | @field owner name kind parts single =>
    rw [kind] at admits
    obtain ⟨first, second, split, firstName, secondName⟩ := admits
    -- The first point of the text is the only place where it can be split.
    have written : t.text.toList = owner.toList ++ '.' :: name.toList := by
      rw [parts]
      simp
    have same := (splitField_eq written single).symm.trans
      (splitField_eq split (name_no_point firstName))
    simp only [String.ofList_toList, Option.some.injEq, Prod.mk.injEq] at same
    obtain ⟨rfl, rfl⟩ := same
    intro n member
    simp only [Expr.names, List.mem_cons, List.not_mem_nil, or_false] at member
    rcases member with rfl | rfl
    · exact isWord_of_isName (by simpa using firstName)
    · exact isWord_of_isName (by simpa using secondName)
  | gameDate kind => simpa [Expr.names] using keyword_isWord kind (by decide) admits
  | season kind => simpa [Expr.names] using keyword_isWord kind (by decide) admits
  | name kind => simpa [Expr.names] using identifier_isWord kind admits
  | _ => simp [Expr.names]

theorem expression_words {ts : List Token} {e : Expr} (derived : IsExpression ts e)
    (admitted : Admitted ts) : ∀ n ∈ e.names, isWord n := by
  cases derived with
  | operand single => exact operand_words single (admitted _ (by simp))
  | compare first sign second =>
    intro n member
    rcases List.mem_append.mp member with left | right
    · exact operand_words first (admitted _ (by simp)) n left
    · exact operand_words second (admitted _ (by simp)) n right

theorem many_words {α : Type} {phrase : Phrase α} {names : α → List String}
    (one : ∀ ts a, phrase ts a → Admitted ts → ∀ n ∈ names a, isWord n)
    {ts : List Token} {as : List α} (derived : Many phrase ts as) (admitted : Admitted ts) :
    ∀ a ∈ as, ∀ n ∈ names a, isWord n := by
  intro a member
  obtain ⟨us, within, item⟩ := derived.item a member
  exact one us a item fun t inside => admitted t (within inside)

theorem declaration_words (ts : List Token) (d : Declaration) (derived : IsDeclaration ts d)
    (admitted : Admitted ts) : ∀ n ∈ d.names, isWord n := by
  cases derived with
  | mk entity name initial =>
    intro n member
    rcases List.mem_cons.mp member with rfl | inner
    · exact identifier_isWord name (admitted _ (by simp))
    · cases initial with
      | absent => simp at inner
      | present written =>
        cases written with
        | mk equals expression =>
          have behind := admitted_tail (admitted_tail (admitted_tail admitted))
          exact expression_words expression behind n (by simpa using inner)

theorem filters_words {ts : List Token} {es : List Expr} (derived : IsFilters ts es)
    (admitted : Admitted ts) : ∀ e ∈ es, ∀ n ∈ e.names, isWord n := by
  cases derived with
  | absent => simp
  | present word first more =>
    intro e member
    rcases List.mem_cons.mp member with rfl | later
    · exact expression_words first fun t inside => admitted t (by simp [inside])
    · refine many_words ?_ more (admitted_of_append admitted) e later
      intro ts e one inside
      cases one with
      | mk word expression => exact expression_words expression (admitted_tail inside)

theorem clause_words (ts : List Token) (c : Clause) (derived : IsClause ts c)
    (admitted : Admitted ts) : ∀ n ∈ c.names, isWord n := by
  have row : ∀ {us : List Token} {o : RowOrder}, IsRowOrder us o → Admitted us →
      isWord o.field := by
    intro us o rows inside
    cases rows with
    | most word field => exact identifier_isWord field (inside _ (by simp))
    | least word field => exact identifier_isWord field (inside _ (by simp))
  cases derived with
  | @selection s f ts us fields basic word first more switch =>
    intro n member
    rcases List.mem_cons.mp member with rfl | later
    · exact identifier_isWord first (admitted _ (by simp))
    · have among : Admitted ts := fun t inside => admitted t (by simp [inside])
      have fields : ∀ f ∈ fields, ∀ n ∈ [f], isWord n := by
        refine many_words ?_ more among
        intro ts f one inside
        cases one with
        | mk comma field => simpa using identifier_isWord field (inside _ (by simp))
      exact fields n later n (List.mem_singleton_self n)
  | orderBy word second rows =>
    simpa [Clause.names] using row rows (admitted_tail (admitted_tail admitted))
  | order rows => simpa [Clause.names] using row rows admitted
  | limit => simp [Clause.names]

theorem query_words {ts : List Token} {q : Query} (derived : IsQuery ts q)
    (admitted : Admitted ts) : ∀ n ∈ q.names, isWord n := by
  cases derived with
  | @mk g ts us vs scope filters clauses word about conditions more =>
    have conditionWords := filters_words conditions fun t inside => admitted t (by simp [inside])
    have clauseWords := many_words clause_words more (admitted_of_append admitted)
    intro n member
    simp only [Query.names, List.mem_append, List.mem_flatMap, List.mem_map, Option.mem_toList,
      or_assoc] at member
    rcases member with ⟨e, among, inside⟩ | ⟨s, last, inside⟩ | ⟨o, last, rfl⟩
    · exact conditionWords e among n inside
    · obtain ⟨c, among, shown⟩ := List.mem_filterMap.mp (List.mem_of_getLast? last)
      cases c with
      | selection =>
        cases shown
        exact clauseWords _ among n inside
      | _ => cases shown
    · obtain ⟨c, among, shown⟩ := List.mem_filterMap.mp (List.mem_of_getLast? last)
      cases c with
      | order =>
        cases shown
        exact clauseWords _ among _ (by simp [Clause.names])
      | _ => cases shown

theorem program_words {ts : List Token} {p : Program} (derived : IsProgram ts p)
    (admitted : Admitted ts) : ∀ n ∈ p.names, isWord n := by
  cases derived with
  | mk first last =>
    intro n member
    rcases List.mem_append.mp member with declared | asked
    · obtain ⟨d, among, inside⟩ := List.mem_flatMap.mp declared
      exact many_words declaration_words first
        (fun t inside => admitted t (List.mem_append_left _ inside)) d among n inside
    · cases last with
      | absent => simp at asked
      | present written =>
        exact query_words written (admitted_of_append admitted) n (by simpa using asked)

end Grammar

theorem parse_words {source : String} {p : Program} (parsed : Program.parse source = .ok p) :
    ∀ n ∈ p.names, isWord n := by
  obtain ⟨ts, admitted, derived⟩ := parse_derived parsed
  exact program_words derived admitted

end BoxScore
