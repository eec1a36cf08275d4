import BoxScore.Proofs.Grammar
import BoxScore.Query.Reading

/- Reading of expressions and clauses against their grammar. Each phrase has two lemmas:
   what is read is derived by the tokens taken off the front, and what is derived is read
   back in front of any tokens that cannot continue it. -/
namespace BoxScore

namespace Reading

open Token Grammar Text

def Admitted (ts : List Token) : Prop := ∀ t ∈ ts, t.kind.Admits t.text.toList

/-- Tokens in front of which an operand is a whole expression. -/
def NoComparison (ts : List Token) : Prop := ∀ op, headKind ts ≠ .comparison op

@[simp]
theorem ok_bind {α β : Type} (a : α) (f : α → Attempt β) : (Except.ok a >>= f) = f a := rfl

@[simp]
theorem pure_eq_ok {α : Type} (a : α) : (pure a : Attempt α) = .ok a := rfl

theorem admitted_of_append {ts us : List Token} (admitted : Admitted (ts ++ us)) :
    Admitted us := fun t member => admitted t (List.mem_append_right ts member)

theorem admitted_tail {ts : List Token} (admitted : Admitted ts) : Admitted ts.tail :=
  fun t member => admitted t (List.mem_of_mem_tail member)

theorem headKind_split {ts : List Token} {kind : Kind} (head : headKind ts = kind)
    (notEnd : kind ≠ .eof) : ∃ t, t.kind = kind ∧ ts = t :: ts.tail := by
  cases ts with
  | nil => exact absurd head.symm notEnd
  | cons t rest => exact ⟨t, head, rfl⟩

theorem entity?_split {ts : List Token} {kind : Entity}
    (head : (headKind ts).entity? = some kind) :
    ∃ t, t.kind = .keyword (.entity kind) ∧ ts = t :: ts.tail := by
  apply headKind_split _ (by simp)
  unfold Kind.entity? at head
  split at head
  · rename_i entity same
    cases head
    exact same
  · cases head

theorem take_sound {kind : Kind} {expected : String} {ts rest : List Token} {t : Token}
    (read : take kind expected ts = .ok (t, rest)) : t.kind = kind ∧ ts = t :: rest := by
  cases ts with
  | nil => cases read
  | cons u ts =>
    simp only [take] at read
    split at read <;> cases read
    exact ⟨‹_›, rfl⟩

theorem take_complete {kind : Kind} {t : Token} (same : t.kind = kind) (expected : String)
    (rest : List Token) : take kind expected (t :: rest) = .ok (t, rest) := by
  simp [take, same]

/- Operands and expressions. -/

theorem name_no_point {cs : List Char} (name : IsName cs) : '.' ∉ cs := by
  obtain ⟨c, rest, rfl, letter, chars⟩ := name
  intro member
  rcases List.mem_cons.mp member with first | later
  · subst first
    contradiction
  · exact absurd (chars '.' later) (by decide)

theorem splitField_eq {text : String} {owner name : List Char}
    (parts : text.toList = owner ++ '.' :: name) (single : '.' ∉ owner) :
    splitField text = some (String.ofList owner, String.ofList name) := by
  have plain : ∀ c ∈ owner, (!decide (c = '.')) = true := by
    intro c member
    simp only [Bool.not_eq_true', decide_eq_false_iff_not]
    intro same
    exact single (same ▸ member)
  have taken : (owner ++ '.' :: name).takeWhile (fun c => !decide (c = '.')) = owner := by
    rw [List.takeWhile_append_of_pos plain]
    simp
  have dropped : (owner ++ '.' :: name).dropWhile (fun c => !decide (c = '.')) = '.' :: name := by
    rw [List.dropWhile_append_of_pos plain]
    simp
  simp [splitField, parts, taken, dropped]

theorem numberValue_sound {t : Token} {v : Value} (kind : t.kind = .number)
    (admits : t.kind.Admits t.text.toList) (read : numberValue t.text = .ok v) :
    IsOperand t (.literal v .number) := by
  rw [kind] at admits
  rcases admits with digits | ⟨whole, part, parts, first, second⟩
  · have noPoint : t.text.toList.contains '.' = false := by
      simpa using digits.not_mem (by decide)
    rw [numberValue, noPoint, readInt64_of_isDigits digits] at read
    simp only [Bool.false_eq_true, ↓reduceIte] at read
    by_cases inRange : digitsValue t.text.toList ≤ greatestInteger
    · simp only [inRange, ↓reduceIte] at read
      cases read
      exact .integer kind digits inRange
    · simp [inRange] at read
  · have point : t.text.toList.contains '.' = true := by simp [parts]
    rw [numberValue, point, decimal_read_of_isDigits parts first second] at read
    simp only [↓reduceIte] at read
    cases read
    exact .decimal kind parts first second

theorem tokenExpr_sound {t : Token} {e : Expr} (admits : t.kind.Admits t.text.toList)
    (read : tokenExpr t = .ok e) : IsOperand t e := by
  unfold tokenExpr at read
  split at read
  · rename_i kind
    rw [kind] at admits
    obtain ⟨owner, name, parts, first, second⟩ := admits
    rw [splitField_eq parts (name_no_point first)] at read
    cases read
    refine .field kind ?_ (by simpa using name_no_point first)
    apply String.toList_inj.mp
    simp [parts]
  · rename_i kind
    cases value : numberValue t.text with
    | error expected => simp [value, Except.map] at read
    | ok v =>
      simp only [value, Except.map] at read
      cases read
      exact numberValue_sound kind admits value
  · cases read; exact .string ‹_›
  · cases read; exact .canonicalName ‹_›
  · cases read; exact .date ‹_›
  · cases read; exact .yes ‹_›
  · cases read; exact .no ‹_›
  · cases read; exact .gameDate ‹_›
  · cases read; exact .season ‹_›
  · cases read; exact .name ‹_›
  · cases read

theorem tokenExpr_complete {t : Token} {e : Expr} (derived : IsOperand t e) :
    tokenExpr t = .ok e := by
  cases derived with
  | @field owner name kind parts single =>
    have split : splitField t.text = some (owner, name) := by
      have texts : t.text.toList = owner.toList ++ '.' :: name.toList := by simp [parts]
      simpa using splitField_eq texts single
    simp [tokenExpr, kind, split]
  | integer kind digits inRange =>
    have noPoint : '.' ∉ t.text.toList := digits.not_mem (by decide)
    simp [tokenExpr, kind, numberValue, noPoint, readInt64_of_isDigits digits, inRange, Except.map]
  | decimal kind parts first second =>
    have point : '.' ∈ t.text.toList := by simp [parts]
    simp [tokenExpr, kind, numberValue, point, decimal_read_of_isDigits parts first second,
      Except.map]
  | string kind => simp [tokenExpr, kind]
  | canonicalName kind => simp [tokenExpr, kind]
  | date kind => simp [tokenExpr, kind]
  | yes kind => simp [tokenExpr, kind]
  | no kind => simp [tokenExpr, kind]
  | gameDate kind => simp [tokenExpr, kind]
  | season kind => simp [tokenExpr, kind]
  | name kind => simp [tokenExpr, kind]

theorem operand_sound {ts rest : List Token} {e : Expr} (admitted : Admitted ts)
    (read : operand ts = .ok (e, rest)) : ∃ t, ts = t :: rest ∧ IsOperand t e := by
  cases ts with
  | nil => cases read
  | cons t ts =>
    simp only [operand] at read
    split at read <;> cases read
    exact ⟨t, rfl, tokenExpr_sound (admitted t (by simp)) ‹_›⟩

theorem operand_complete {t : Token} {e : Expr} (derived : IsOperand t e) (rest : List Token) :
    operand (t :: rest) = .ok (e, rest) := by
  simp [operand, tokenExpr_complete derived]

theorem expression_sound {ts rest : List Token} {e : Expr} (admitted : Admitted ts)
    (read : expression ts = .ok (e, rest)) : ∃ us, ts = us ++ rest ∧ IsExpression us e := by
  obtain ⟨⟨left, middle⟩, first, after⟩ := bind_eq_ok read
  obtain ⟨t, front, leftOperand⟩ := operand_sound admitted first
  rw [front] at admitted ⊢
  have behind : Admitted middle := admitted_tail admitted
  simp only at after
  split at after
  · rename_i op head
    obtain ⟨o, sign, split⟩ := headKind_split head (by simp)
    obtain ⟨⟨right, last⟩, second, finish⟩ := bind_eq_ok after
    obtain ⟨u, more, rightOperand⟩ := operand_sound (admitted_tail behind) second
    cases finish
    refine ⟨[t, o, u], ?_, .compare leftOperand sign rightOperand⟩
    rw [split, more]
    rfl
  · cases after
    exact ⟨[t], rfl, .operand leftOperand⟩

theorem expression_complete {ts rest : List Token} {e : Expr} (derived : IsExpression ts e)
    (stop : NoComparison rest) : expression (ts ++ rest) = .ok (e, rest) := by
  cases derived with
  | @operand t e single =>
    simp only [expression, List.singleton_append, operand_complete single]
    cases head : headKind rest with
    | comparison op => exact absurd head (stop op)
    | _ => simp [head]
  | @compare t o u left right op first sign second =>
    simp [expression, operand_complete first, operand_complete second, headKind, sign]

/- Clauses. -/

theorem moreFields_stop {ts : List Token} (other : headKind ts ≠ .punctuation .comma) :
    moreFields ts = .ok ([], ts) := by
  rw [moreFields, if_neg other]

theorem moreFields_step {ts rest last : List Token} {field : Token} {fields : List String}
    (comma : headKind ts = .punctuation .comma)
    (read : take .identifier "field name after ','" ts.tail = .ok (field, rest))
    (more : moreFields rest = .ok (fields, last)) :
    moreFields ts = .ok (field.text :: fields, last) := by
  rw [moreFields, if_pos comma]
  split
  · rename_i failed
    rw [read] at failed
    cases failed
  · rename_i again
    rw [read] at again
    cases again
    simp [more]

theorem moreFields_sound (ts : List Token) : ∀ fields rest, moreFields ts = .ok (fields, rest) →
    ∃ us, ts = us ++ rest ∧ Many IsMoreField us fields := by
  fun_induction moreFields ts with
  | case1 ts comma r failed => intro fields rest read; cases read
  | case2 ts comma field rest' read' shorter ih =>
    intro fields rest read
    obtain ⟨⟨more, last⟩, inner, finish⟩ := bind_eq_ok read
    cases finish
    obtain ⟨us, tail, derived⟩ := ih _ _ inner
    obtain ⟨c, mark, split⟩ := headKind_split comma (by simp)
    obtain ⟨name, behind⟩ := take_sound read'
    refine ⟨[c, field] ++ us, ?_, .cons (.mk mark name) derived⟩
    rw [split, behind, tail]
    rfl
  | case3 ts other =>
    intro fields rest read
    cases read
    exact ⟨[], rfl, .nil⟩

theorem moreFields_complete {ts rest : List Token} {fields : List String}
    (derived : Many IsMoreField ts fields) (stop : headKind rest ≠ .punctuation .comma) :
    moreFields (ts ++ rest) = .ok (fields, rest) := by
  induction derived with
  | nil => exact moreFields_stop stop
  | @cons ts us field fields first more ih =>
    cases first with
    | @mk c f comma name => exact moreFields_step comma (take_complete name _ _) ih

theorem basicSwitch_sound {ts rest : List Token} {basic : Bool}
    (read : basicSwitch ts = .ok (basic, rest)) : ∃ us, ts = us ++ rest ∧ IsBasic us basic := by
  unfold basicSwitch at read
  split at read
  · rename_i head
    obtain ⟨b, word, split⟩ := headKind_split head (by simp)
    obtain ⟨⟨o, middle⟩, first, after⟩ := bind_eq_ok read
    obtain ⟨equals, behind⟩ := take_sound first
    simp only at after
    split at after
    · rename_i value
      obtain ⟨v, off, more⟩ := headKind_split value (by simp)
      cases after
      refine ⟨[b, o, v], ?_, .off word equals off⟩
      rw [split, behind, more]
      rfl
    · rename_i value
      obtain ⟨v, on, more⟩ := headKind_split value (by simp)
      cases after
      refine ⟨[b, o, v], ?_, .on word equals on⟩
      rw [split, behind, more]
      rfl
    · cases after
  · cases read
    exact ⟨[], rfl, .absent⟩

theorem basicSwitch_complete {ts rest : List Token} {basic : Bool} (derived : IsBasic ts basic)
    (stop : headKind rest ≠ .keyword .basic) : basicSwitch (ts ++ rest) = .ok (basic, rest) := by
  cases derived with
  | absent => simp [basicSwitch, stop]
  | on word equals value =>
    simp [basicSwitch, headKind, word, take, equals, value]
  | off word equals value =>
    simp [basicSwitch, headKind, word, take, equals, value]

theorem rowOrder_sound {ts rest : List Token} {order : RowOrder}
    (read : rowOrder ts = .ok (order, rest)) : ∃ us, ts = us ++ rest ∧ IsRowOrder us order := by
  unfold rowOrder at read
  split at read
  · rename_i head
    obtain ⟨w, word, split⟩ := headKind_split head (by simp)
    obtain ⟨⟨f, last⟩, first, finish⟩ := bind_eq_ok read
    obtain ⟨field, behind⟩ := take_sound first
    cases finish
    exact ⟨[w, f], by rw [split, behind]; rfl, .most word field⟩
  · rename_i head
    obtain ⟨w, word, split⟩ := headKind_split head (by simp)
    obtain ⟨⟨f, last⟩, first, finish⟩ := bind_eq_ok read
    obtain ⟨field, behind⟩ := take_sound first
    cases finish
    exact ⟨[w, f], by rw [split, behind]; rfl, .least word field⟩
  · cases read

theorem rowOrder_complete {ts : List Token} {order : RowOrder} (derived : IsRowOrder ts order)
    (rest : List Token) : rowOrder (ts ++ rest) = .ok (order, rest) := by
  cases derived with
  | most word field =>
    simp [rowOrder, headKind, word, take, field]
  | least word field =>
    simp [rowOrder, headKind, word, take, field]

theorem selection_sound {ts rest : List Token} {s : Selection}
    (read : selection ts = .ok (s, rest)) : ∃ f us vs fields basic, ts = f :: us ++ vs ++ rest ∧
      f.kind = .identifier ∧ Many IsMoreField us fields ∧ IsBasic vs basic ∧
      s = ⟨f.text :: fields, basic⟩ := by
  obtain ⟨⟨f, afterField⟩, first, more⟩ := bind_eq_ok read
  obtain ⟨⟨fields, afterFields⟩, second, last⟩ := bind_eq_ok more
  obtain ⟨⟨basic, finish⟩, third, done⟩ := bind_eq_ok last
  obtain ⟨name, front⟩ := take_sound first
  obtain ⟨us, middle, names⟩ := moreFields_sound _ _ _ second
  obtain ⟨vs, back, switch⟩ := basicSwitch_sound third
  cases done
  refine ⟨f, us, vs, fields, basic, ?_, name, names, switch, rfl⟩
  rw [front, middle, back]
  simp

theorem selection_complete {f : Token} {ts us rest : List Token} {fields : List String}
    {basic : Bool} (name : f.kind = .identifier) (names : Many IsMoreField ts fields)
    (switch : IsBasic us basic) (noComma : headKind rest ≠ .punctuation .comma)
    (noSwitch : headKind rest ≠ .keyword .basic) :
    selection (f :: ts ++ us ++ rest) = .ok (⟨f.text :: fields, basic⟩, rest) := by
  have noCommaFirst : headKind (us ++ rest) ≠ .punctuation .comma := by
    cases switch with
    | absent => exact noComma
    | on word equals value => simp [headKind, word]
    | off word equals value => simp [headKind, word]
  have second := moreFields_complete names noCommaFirst
  have third := basicSwitch_complete switch noSwitch
  simp [selection, take_complete name, second, third]

theorem rowCount_sound {ts rest : List Token} {count : UInt64} (admitted : Admitted ts)
    (read : rowCount ts = .ok (count, rest)) : ∃ n, ts = n :: rest ∧ n.kind = .number ∧
      IsDigits n.text.toList ∧ digitsValue n.text.toList ≤ greatestCount ∧
      count = UInt64.ofNat (digitsValue n.text.toList) := by
  cases ts with
  | nil => cases read
  | cons n ts =>
    simp only [rowCount] at read
    split at read
    · rename_i number
      have admits := admitted n (by simp)
      rw [number] at admits
      rcases admits with digits | ⟨whole, part, parts, _, _⟩
      · rw [readUInt64_of_isDigits digits] at read
        by_cases inRange : digitsValue n.text.toList ≤ greatestCount
        · simp only [inRange, ↓reduceIte] at read
          cases read
          exact ⟨n, rfl, number, digits, inRange, rfl⟩
        · simp only [inRange, ↓reduceIte] at read
          cases read
      · rw [readUInt64_of_point (by simp [parts])] at read
        cases read
    · cases read

theorem rowCount_complete {n : Token} (number : n.kind = .number)
    (digits : IsDigits n.text.toList) (inRange : digitsValue n.text.toList ≤ greatestCount)
    (rest : List Token) :
    rowCount (n :: rest) = .ok (UInt64.ofNat (digitsValue n.text.toList), rest) := by
  simp [rowCount, number, readUInt64_of_isDigits digits, inRange]

theorem clause?_sound {ts rest : List Token} {c : Clause} (admitted : Admitted ts)
    (read : clause? ts = some (.ok (c, rest))) : ∃ us, ts = us ++ rest ∧ IsClause us c := by
  unfold clause? at read
  split at read
  · rename_i head
    obtain ⟨w, word, split⟩ := headKind_split head (by simp)
    obtain ⟨⟨s, last⟩, first, finish⟩ := bind_eq_ok (Option.some.inj read)
    obtain ⟨f, us, vs, fields, basic, behind, name, names, switch, rfl⟩ := selection_sound first
    cases finish
    refine ⟨w :: f :: us ++ vs, ?_, .selection word name names switch⟩
    rw [split, behind]
    simp
  · rename_i head
    obtain ⟨o, word, split⟩ := headKind_split head (by simp)
    obtain ⟨⟨b, middle⟩, first, after⟩ := bind_eq_ok (Option.some.inj read)
    obtain ⟨⟨order, last⟩, second, finish⟩ := bind_eq_ok after
    obtain ⟨byWord, behind⟩ := take_sound first
    obtain ⟨us, more, rows⟩ := rowOrder_sound second
    cases finish
    refine ⟨o :: b :: us, ?_, .orderBy word byWord rows⟩
    rw [split, behind, more]
    rfl
  · obtain ⟨⟨order, last⟩, first, finish⟩ := bind_eq_ok (Option.some.inj read)
    obtain ⟨us, front, rows⟩ := rowOrder_sound first
    cases finish
    exact ⟨us, front, .order rows⟩
  · obtain ⟨⟨order, last⟩, first, finish⟩ := bind_eq_ok (Option.some.inj read)
    obtain ⟨us, front, rows⟩ := rowOrder_sound first
    cases finish
    exact ⟨us, front, .order rows⟩
  · rename_i head
    obtain ⟨l, word, split⟩ := headKind_split head (by simp)
    obtain ⟨⟨count, last⟩, first, finish⟩ := bind_eq_ok (Option.some.inj read)
    obtain ⟨n, behind, number, digits, inRange, rfl⟩ :=
      rowCount_sound (admitted_tail admitted) first
    cases finish
    exact ⟨[l, n], by rw [split, behind]; rfl, .limit word number digits inRange⟩
  · cases read

def endsConditions : Kind → Bool
  | .eof | .keyword .select | .keyword .order | .keyword .most | .keyword .least
  | .keyword .limit => true
  | _ => false

theorem headKind_ne_of_endsConditions {ts : List Token} {kind : Kind}
    (stop : endsConditions (headKind ts)) (other : endsConditions kind = false) :
    headKind ts ≠ kind := by
  intro same
  rw [same, other] at stop
  cases stop

theorem clause_head {ts : List Token} {c : Clause} (derived : IsClause ts c)
    (rest : List Token) : endsConditions (headKind (ts ++ rest)) := by
  cases derived with
  | selection word first more switch => simp [headKind, word, endsConditions]
  | orderBy word second rows => simp [headKind, word, endsConditions]
  | order rows =>
    cases rows with
    | most word field => simp [headKind, word, endsConditions]
    | least word field => simp [headKind, word, endsConditions]
  | limit word number digits inRange => simp [headKind, word, endsConditions]

theorem clause?_complete {ts rest : List Token} {c : Clause} (derived : IsClause ts c)
    (stop : endsConditions (headKind rest)) : clause? (ts ++ rest) = some (.ok (c, rest)) := by
  cases derived with
  | @selection s f ts us fields basic word first more switch =>
    have noComma : headKind rest ≠ .punctuation .comma := headKind_ne_of_endsConditions stop rfl
    have noSwitch : headKind rest ≠ .keyword .basic := headKind_ne_of_endsConditions stop rfl
    have read := selection_complete first more switch noComma noSwitch
    simp only [List.cons_append, List.append_assoc] at read
    simp [clause?, headKind, word, read]
  | orderBy word second rows =>
    simp [clause?, headKind, word, take, second, rowOrder_complete rows]
  | order rows =>
    have read := rowOrder_complete rows rest
    cases rows with
    | most word field =>
      simp only [List.cons_append, List.nil_append] at read
      simp [clause?, headKind, word, read]
    | least word field =>
      simp only [List.cons_append, List.nil_append] at read
      simp [clause?, headKind, word, read]
  | limit word number digits inRange =>
    simp [clause?, headKind, word, rowCount_complete number digits inRange]

theorem clauses_stop {ts : List Token} (none : clause? ts = none) :
    clauses ts = .ok ([], ts) := by
  rw [clauses]
  split
  · rfl
  · rename_i failed
    rw [none] at failed
    cases failed
  · rename_i again
    rw [none] at again
    cases again

theorem clauses_step {ts rest last : List Token} {c : Clause} {cs : List Clause}
    (read : clause? ts = some (.ok (c, rest))) (more : clauses rest = .ok (cs, last)) :
    clauses ts = .ok (c :: cs, last) := by
  rw [clauses]
  split
  · rename_i none
    rw [read] at none
    cases none
  · rename_i failed
    rw [read] at failed
    cases failed
  · rename_i again
    rw [read] at again
    cases again
    simp [more]

theorem clauses_sound (ts : List Token) (admitted : Admitted ts) :
    ∀ cs rest, clauses ts = .ok (cs, rest) → ∃ us, ts = us ++ rest ∧ Many IsClause us cs := by
  fun_induction clauses ts with
  | case1 ts none =>
    intro cs rest read
    cases read
    exact ⟨[], rfl, .nil⟩
  | case2 ts r failed => intro cs rest read; cases read
  | case3 ts c middle first shorter ih =>
    intro cs rest read
    obtain ⟨us, front, derived⟩ := clause?_sound admitted first
    obtain ⟨⟨more, last⟩, inner, finish⟩ := bind_eq_ok read
    cases finish
    rw [front] at admitted
    obtain ⟨vs, back, others⟩ := ih (admitted_of_append admitted) _ _ inner
    refine ⟨us ++ vs, ?_, .cons derived others⟩
    rw [front, back]
    simp

theorem clauses_head {ts rest : List Token} {cs : List Clause} (derived : Many IsClause ts cs)
    (finish : headKind rest = .eof) : endsConditions (headKind (ts ++ rest)) := by
  cases derived with
  | nil => simp [finish, endsConditions]
  | @cons ts us c cs first more =>
    rw [List.append_assoc]
    exact clause_head first _

theorem clauses_complete {ts rest : List Token} {cs : List Clause}
    (derived : Many IsClause ts cs) (finish : headKind rest = .eof) :
    clauses (ts ++ rest) = .ok (cs, rest) := by
  induction derived with
  | nil => exact clauses_stop (by simp [clause?, finish])
  | @cons ts us c cs first more ih =>
    rw [List.append_assoc]
    exact clauses_step (clause?_complete first (clauses_head more finish)) ih

end Reading
end BoxScore
