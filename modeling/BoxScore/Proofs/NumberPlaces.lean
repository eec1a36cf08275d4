import BoxScore.Proofs.LostNumbers
import BoxScore.Proofs.PredictiveReading

/- Where a number can be read. Behind any words that begin a phrase, a number is read as an
   operand, or as a row count, or else the reading stops in front of it or earlier. What is
   read as an operand becomes one of the phrase. -/
namespace BoxScore

def Declaration.operands (d : Declaration) : List Expr := d.initial.toList.flatMap Expr.operands

def Query.operands (q : Query) : List Expr := q.filters.flatMap Expr.operands

def Program.operands (p : Program) : List Expr :=
  p.declarations.flatMap Declaration.operands ++ p.query.toList.flatMap Query.operands

namespace Reading

inductive Site where
  | operand
  | count

namespace Site

def Value : Site → Type
  | .operand => Expr
  | .count => UInt64

def read : (site : Site) → Reader site.Value
  | .operand => Reading.operand
  | .count => rowCount

def expected : Site → String
  | .operand => "expression"
  | .count => "number after 'limit'"

theorem read_nil (site : Site) : site.read [] = refuse site.expected [] := by
  cases site <;> rfl

theorem read_single (site : Site) : Single site.read := by
  cases site with
  | operand => exact operand_single
  | count => exact rowCount_single

theorem eq_of_expected {site other : Site} (same : site.expected = other.expected) :
    site = other := by
  cases site <;> cases other <;> simp_all [expected]

end Site

/-- What is known of a phrase that has a number in it, from the value of the number and the
    tokens behind it. -/
abbrev Uses (α : Type) := (site : Site) → site.Value → List Token → α → Prop

def nowhere {α : Type} : Uses α := fun _ _ _ _ => False

def among {α : Type} (operands : α → List Expr) : Uses α
  | .operand, (e : Expr), _, a => e.operands = [e] → e ∈ operands a
  | .count, _, _, _ => False

variable {α β : Type} {ts front rest : List Token}

/-- Reading goes on behind the number and does not come back to it. -/
structure Carries (holds : β → List Token → α → Prop)
    (k : β × List Token → Attempt (α × List Token)) : Prop where
  read : ∀ {b ts a rest}, k (b, ts) = .ok (a, rest) → rest <:+ ts ∧ holds b ts a
  refused : ∀ {b ts r}, k (b, ts) = .error r → r.rest <:+ ts

/-- What a reader does behind the words `front` if a number comes next. -/
inductive Place (holds : Uses α) (f : Reader α) (front : List Token) : Prop where
  | due (site : Site) (k : site.Value × List Token → Attempt (α × List Token))
      (reads : ∀ ts, f (front ++ ts) = site.read ts >>= k) (carries : Carries (holds site) k)
  | left (a : α) (rest : List Token) (reads : ∀ ts, f (front ++ ts) = .ok (a, rest ++ ts))
  | failed (expected : String) (rest : List Token)
      (refuses : ∀ ts, f (front ++ ts) = .error ⟨expected, rest ++ ts⟩)
  | bare
      (ends : (∃ a, f front = .ok (a, [])) ∨
        ∃ expected, f front = .error ⟨expected, []⟩ ∧ ∀ site : Site, expected ≠ site.expected)
      (stops : ∀ t rest, t.kind = .number → (∃ a, f (front ++ t :: rest) = .ok (a, t :: rest)) ∨
        ∃ expected, f (front ++ t :: rest) = .error ⟨expected, t :: rest⟩)

def Placed (holds : Uses α) (f : Reader α) : Prop := ∀ front, Place holds f front

/-- A reader of phrases that can be left out, and are if a number comes next. -/
structure Skips (f : Reader α) : Prop where
  read : ∀ {ts a rest}, f ts = .ok (a, rest) → rest <:+ ts
  refused : ∀ {ts r}, f ts = .error r → r.rest <:+ ts
  absent : ∃ a, f [] = .ok (a, [])
  stops : ∀ t rest, t.kind = .number → (∃ a, f (t :: rest) = .ok (a, t :: rest)) ∨
    ∃ expected, f (t :: rest) = .error ⟨expected, t :: rest⟩

structure Omissible (holds : Uses α) (f : Reader α) : Prop where
  placed : Placed holds f
  skips : Skips f

section Sequences

variable {holds : Uses α} {keeps : Uses β} {f : Reader α}
  {g : α × List Token → Attempt (β × List Token)}

theorem Place.of_eq {f h : Reader α} (place : Place holds h rest)
    (same : ∀ ts, f (front ++ ts) = h (rest ++ ts)) : Place holds f front := by
  have whole : f front = h rest := by simpa using same []
  cases place with
  | due site k reads carries => exact .due site k (fun ts => by rw [same, reads]) carries
  | left a last reads => exact .left a last fun ts => by rw [same, reads]
  | failed expected last refuses => exact .failed expected last fun ts => by rw [same, refuses]
  | bare ends stops =>
    refine .bare (by rwa [whole]) fun t behind number => ?_
    rw [same]
    exact stops t behind number

theorem bind_eq_error {x : Attempt α} {next : α → Attempt β} {r : Refusal}
    (failed : x >>= next = .error r) : x = .error r ∨ ∃ a, x = .ok a ∧ next a = .error r := by
  cases x with
  | error s =>
    cases failed
    exact Or.inl rfl
  | ok a => exact Or.inr ⟨a, rfl, failed⟩

theorem Optional.skips (optional : Optional f)
    (stops : ∀ t rest, t.kind = .number → ∃ a, f (t :: rest) = .ok (a, t :: rest)) : Skips f where
  read {ts _ _} read := (optional.deferred ts).settled.rest_suffix read
  refused {ts _} failed := (optional.deferred ts).settled.refused_suffix failed
  absent := optional.absent
  stops t rest number := .inl (stops t rest number)

theorem skips_pure (a : α) : Skips fun us => .ok (a, us) :=
  (optional_pure a).skips fun _ _ _ => ⟨a, rfl⟩

theorem Skips.bind (first : Skips f) (next : ∀ a, Skips fun us => g (a, us)) :
    Skips fun us => f us >>= g where
  read {ts b rest} read := by
    obtain ⟨⟨a, middle⟩, one, two⟩ := bind_eq_ok read
    exact ((next a).read two).trans (first.read one)
  refused {ts r} failed := by
    rcases bind_eq_error failed with one | ⟨⟨a, middle⟩, one, two⟩
    · exact first.refused one
    · exact ((next a).refused two).trans (first.read one)
  absent := by
    obtain ⟨a, nothing⟩ := first.absent
    obtain ⟨b, nothingToo⟩ := (next a).absent
    refine ⟨b, ?_⟩
    simp only [nothing]
    exact nothingToo
  stops t rest number := by
    rcases first.stops t rest number with ⟨a, one⟩ | ⟨expected, one⟩
    · simp only [one]
      exact (next a).stops t rest number
    · refine .inr ⟨expected, ?_⟩
      simp only [one]
      rfl

theorem Carries.bind {γ : Type} {holds : γ → List Token → α → Prop}
    {keeps : γ → List Token → β → Prop} {k : γ × List Token → Attempt (α × List Token)}
    (first : Carries holds k) (next : ∀ a, Skips fun us => g (a, us))
    (kept : ∀ {v ts a rest b last}, holds v ts a → rest <:+ ts → g (a, rest) = .ok (b, last) →
      keeps v ts b) : Carries keeps fun found => k found >>= g where
  read {v ts b last} read := by
    obtain ⟨⟨a, middle⟩, one, two⟩ := bind_eq_ok read
    obtain ⟨behind, held⟩ := first.read one
    exact ⟨((next a).read two).trans behind, kept held behind two⟩
  refused {v ts r} failed := by
    rcases bind_eq_error failed with one | ⟨⟨a, middle⟩, one, two⟩
    · exact first.refused one
    · exact ((next a).refused two).trans (first.read one).1

theorem Place.bind (first : Place holds f front)
    (next : ∀ a rest, (∀ ts, f (front ++ ts) = .ok (a, rest ++ ts)) →
      Place keeps (fun us => g (a, us)) rest)
    (skips : ∀ a, Skips fun us => g (a, us))
    (kept : ∀ {site v ts a rest b last}, holds site v ts a → rest <:+ ts →
      g (a, rest) = .ok (b, last) → keeps site v ts b) :
    Place keeps (fun us => f us >>= g) front := by
  cases first with
  | due site k reads carries =>
    refine .due site (fun found => k found >>= g) (fun ts => ?_) (carries.bind skips kept)
    rw [reads, bind_assoc]
  | left a rest reads =>
    refine (next a rest reads).of_eq fun ts => ?_
    rw [reads]
    rfl
  | failed expected rest refuses =>
    refine .failed expected rest fun ts => ?_
    rw [refuses]
    rfl
  | bare ends stops =>
    refine .bare ?_ fun t rest number => ?_
    · rcases ends with ⟨a, read⟩ | ⟨expected, failed, other⟩
      · obtain ⟨b, nothing⟩ := (skips a).absent
        refine .inl ⟨b, ?_⟩
        simp only [read]
        exact nothing
      · refine .inr ⟨expected, ?_, other⟩
        simp only [failed]
        rfl
    · rcases stops t rest number with ⟨a, read⟩ | ⟨expected, failed⟩
      · simp only [read]
        exact (skips a).stops t rest number
      · refine .inr ⟨expected, ?_⟩
        simp only [failed]
        rfl

theorem placed_pure (holds : Uses α) (a : α) : Placed holds fun us => .ok (a, us) :=
  fun front => .left a front fun _ => rfl

theorem omissible_pure (holds : Uses α) (a : α) : Omissible holds fun us => .ok (a, us) :=
  ⟨placed_pure holds a, skips_pure a⟩

theorem Placed.bind (first : Placed holds f) (next : ∀ a, Omissible keeps fun us => g (a, us))
    (kept : ∀ {site v ts a rest b last}, holds site v ts a → rest <:+ ts →
      g (a, rest) = .ok (b, last) → keeps site v ts b) : Placed keeps fun us => f us >>= g :=
  fun front => (first front).bind (fun a rest _ => (next a).placed rest)
    (fun a => (next a).skips) kept

theorem Omissible.bind (first : Omissible holds f)
    (next : ∀ a, Omissible keeps fun us => g (a, us))
    (kept : ∀ {site v ts a rest b last}, holds site v ts a → rest <:+ ts →
      g (a, rest) = .ok (b, last) → keeps site v ts b) : Omissible keeps fun us => f us >>= g :=
  ⟨first.placed.bind next kept, first.skips.bind fun a => (next a).skips⟩

theorem Single.placed_bind (first : Single f) (start : Place keeps (fun us => f us >>= g) [])
    (next : ∀ a, Placed keeps fun us => g (a, us)) : Placed keeps fun us => f us >>= g := by
  intro front
  cases front with
  | nil => exact start
  | cons t front =>
    rcases first.settled (t :: front) with ⟨u, us, a, split, read⟩ | ⟨expected, failed⟩
    · cases split
      refine (next a front).of_eq fun ts => ?_
      rw [List.cons_append, read]
      rfl
    · refine .failed expected (t :: front) fun ts => ?_
      rw [failed (t :: front ++ ts) (Or.inl rfl)]
      rfl

theorem place_refused (missing : String) (other : ∀ site : Site, missing ≠ site.expected)
    (nothing : f [] = refuse missing [])
    (refuses : ∀ t rest, t.kind = .number →
      ∃ expected, f (t :: rest) = refuse expected (t :: rest)) :
    Place keeps (fun us => f us >>= g) [] := by
  refine .bare (.inr ⟨missing, ?_, other⟩) fun t rest number => ?_
  · rw [nothing]
    rfl
  · obtain ⟨expected, refused⟩ := refuses t rest number
    refine .inr ⟨expected, ?_⟩
    rw [List.nil_append, refused]
    rfl

theorem Site.placed_bind (site : Site) {g : site.Value × List Token → Attempt (β × List Token)}
    (carries : Carries (keeps site) g) (next : ∀ v, Placed keeps fun us => g (v, us)) :
    Placed keeps fun us => site.read us >>= g :=
  site.read_single.placed_bind (.due site g (fun _ => rfl) carries) next

end Sequences

section Choices

variable {holds : Uses α} {f : Reader α} {a : α} {start : Token → Option (Reader α)}

theorem Opens.omissible (opens : Opens start)
    (choice : ∀ us, f us = match us.head?.bind start with
      | some g => g us.tail
      | none => .ok (a, us))
    (numbers : ∀ t, t.kind = .number → start t = none)
    (placed : ∀ t g, start t = some g → Placed holds g) : Omissible holds f := by
  have stops : ∀ t rest, t.kind = .number → f (t :: rest) = .ok (a, t :: rest) := by
    intro t rest number
    simp [choice, numbers t number]
  refine ⟨fun front => ?_, (opens.optional choice).skips fun t rest number =>
    ⟨a, stops t rest number⟩⟩
  cases front with
  | nil => exact .bare (.inl ⟨a, choice []⟩) fun t rest number => .inl ⟨a, stops t rest number⟩
  | cons t front =>
    cases opened : start t with
    | none => exact .left a (t :: front) fun ts => by simp [choice, opened]
    | some g =>
      refine (placed t g opened front).of_eq fun ts => ?_
      simp [choice, opened]

def itemsBehind (loop : Reader (List α)) (found : α × List Token) :
    Attempt (List α × List Token) :=
  loop found.2 >>= fun more => .ok (found.1 :: more.1, more.2)

theorem Skips.itemsBehind {loop : Reader (List α)} (skips : Skips loop) (a : α) :
    Skips fun us => itemsBehind loop (a, us) :=
  skips.bind (g := fun more => .ok (a :: more.1, more.2)) fun as => skips_pure (a :: as)

theorem Place.itemsBehind {keeps : Uses (List α)} {loop : Reader (List α)}
    (place : Place keeps loop front) (a : α)
    (later : ∀ {site v ts as}, keeps site v ts as → keeps site v ts (a :: as)) :
    Place keeps (fun us => itemsBehind loop (a, us)) front := by
  refine place.bind (g := fun more => .ok (a :: more.1, more.2))
    (fun as last _ => placed_pure keeps (a :: as) last) (fun as => skips_pure (a :: as)) ?_
  intro site v ts as rest joined last held _ read
  cases read
  exact later held

/-- A loop over phrases that a first token opens: the induction is on the number of words. -/
theorem Repeats.omissible {keeps : Uses (List α)}
    {item? : List Token → Option (Attempt (α × List Token))}
    {loop : List Token → Attempt (List α × List Token)} (repeats : Repeats item? loop)
    (opens : Opens start) (items : ∀ us, item? us = (us.head?.bind start).map (· us.tail))
    (numbers : ∀ t, t.kind = .number → start t = none)
    (placed : ∀ t g, start t = some g → Placed holds g)
    (first : ∀ {site v ts a rest as last}, holds site v ts a → rest <:+ ts →
      loop rest = .ok (as, last) → keeps site v ts (a :: as))
    (later : ∀ {site v ts a as}, keeps site v ts as → keeps site v ts (a :: as)) :
    Omissible keeps loop := by
  have stop : ∀ us, us.head?.bind start = none → loop us = .ok ([], us) := by
    intro us opened
    exact repeats.stop (by rw [items, opened]; rfl)
  have stops : ∀ t rest, t.kind = .number → loop (t :: rest) = .ok ([], t :: rest) :=
    fun t rest number => stop (t :: rest) (numbers t number)
  have skips : Skips loop := (repeats.optional opens items).skips fun t rest number =>
    ⟨[], stops t rest number⟩
  refine ⟨fun front => ?_, skips⟩
  induction size : front.length using Nat.strongRecOn generalizing front with
  | ind n ih =>
    cases front with
    | nil =>
      exact .bare (.inl ⟨[], stop [] rfl⟩) fun t rest number => .inl ⟨[], stops t rest number⟩
    | cons t front =>
      cases opened : start t with
      | none => exact .left [] (t :: front) fun ts => stop (t :: front ++ ts) opened
      | some g =>
        have chosen : ∀ ts, item? (t :: ts) = some (g ts) := by simp [items, opened]
        have step : ∀ ts, loop (t :: ts) = g ts >>= itemsBehind loop :=
          fun ts => repeats.step (chosen ts)
        have begun : Place keeps (fun us => g us >>= itemsBehind loop) front := by
          refine (placed t g opened front).bind (fun a rest reads => ?_) skips.itemsBehind ?_
          · have read : g front = .ok (a, rest) := by simpa using reads []
            have shorter := repeats.shortens ((chosen front).trans (congrArg some read))
            exact (ih rest.length (by omega) rest rfl).itemsBehind a later
          · intro site v ts a rest as last held behind read
            obtain ⟨⟨found, middle⟩, one, two⟩ := bind_eq_ok read
            cases two
            exact first held behind one
        exact begun.of_eq fun ts => step (front ++ ts)

variable {kind : Token.Kind} {g : Reader α}

theorem behind_number (notNumber : kind ≠ .number) (t : Token) (number : t.kind = .number) :
    behind kind g t = none := if_neg (by rw [number]; exact notNumber.symm)

theorem placed_behind (placed : Placed holds g) (t : Token) (h : Reader α)
    (chosen : behind kind g t = some h) : Placed holds h := by
  unfold behind at chosen
  split at chosen
  · cases chosen
    exact placed
  · cases chosen

theorem omissible_behind (kind : Token.Kind) (notEnd : kind ≠ .eof) (notNumber : kind ≠ .number)
    (reads : Predictive g) (placed : Placed holds g)
    (choice : ∀ us, f us = if headKind us = kind then g us.tail else .ok (a, us)) :
    Omissible holds f := by
  refine (opens_behind notEnd reads).omissible (a := a) (fun us => ?_)
    (behind_number notNumber) (placed_behind placed)
  rw [head?_behind notEnd, choice]
  split <;> rfl

theorem Repeats.omissible_behind {keeps : Uses (List α)}
    {item? : List Token → Option (Attempt (α × List Token))}
    {loop : List Token → Attempt (List α × List Token)} (repeats : Repeats item? loop)
    (kind : Token.Kind) (notEnd : kind ≠ .eof) (notNumber : kind ≠ .number)
    (reads : Predictive g) (placed : Placed holds g)
    (items : ∀ us, item? us = if headKind us = kind then some (g us.tail) else none)
    (first : ∀ {site v ts a rest as last}, holds site v ts a → rest <:+ ts →
      loop rest = .ok (as, last) → keeps site v ts (a :: as))
    (later : ∀ {site v ts a as}, keeps site v ts as → keeps site v ts (a :: as)) :
    Omissible keeps loop := by
  refine repeats.omissible (opens_behind notEnd reads) (fun us => ?_)
    (behind_number notNumber) (placed_behind placed) first later
  rw [head?_behind notEnd, items]
  split <;> rfl

end Choices

section Tokens

variable {keeps : Uses β}

theorem not_expected {missing : String} (first : missing ≠ "expression")
    (second : missing ≠ "number after 'limit'") (site : Site) : missing ≠ site.expected := by
  cases site with
  | operand => exact first
  | count => exact second

theorem take_placed (kind : Token.Kind) (expected : String)
    {g : Token × List Token → Attempt (β × List Token)} (word : kind ≠ .newline)
    (notEnd : kind ≠ .eof) (notNumber : kind ≠ .number)
    (other : ∀ site : Site, expected ≠ site.expected)
    (next : ∀ t, Placed keeps fun us => g (t, us)) :
    Placed keeps fun us => take kind expected us >>= g := by
  refine (take_single kind expected word notEnd).placed_bind ?_ next
  refine place_refused expected other rfl fun t rest number => ⟨expected, if_neg ?_⟩
  rw [number]
  exact notNumber.symm

theorem identifier_placed (expected : String)
    {g : Token × List Token → Attempt (β × List Token)}
    (other : ∀ site : Site, expected ≠ site.expected)
    (next : ∀ t, Placed keeps fun us => g (t, us)) :
    Placed keeps fun us => take .identifier expected us >>= g :=
  take_placed .identifier expected (by simp) (by simp) (by simp) other next

theorem one_placed {item : Token → Except String α} {missing : String}
    {g : α × List Token → Attempt (β × List Token)} (single : Single (one item missing))
    (numbers : ∀ t, t.kind = .number → ∃ expected, item t = .error expected)
    (other : ∀ site : Site, missing ≠ site.expected)
    (next : ∀ a, Placed keeps fun us => g (a, us)) :
    Placed keeps fun us => one item missing us >>= g := by
  refine single.placed_bind ?_ next
  refine place_refused missing other rfl fun t rest number => ?_
  obtain ⟨expected, refused⟩ := numbers t number
  exact ⟨expected, by simp [one, refused]⟩

theorem one_placed_alone {item : Token → Except String α} {missing : String} {holds : Uses α}
    (single : Single (one item missing))
    (numbers : ∀ t, t.kind = .number → ∃ expected, item t = .error expected)
    (other : ∀ site : Site, missing ≠ site.expected) : Placed holds (one item missing) := by
  have whole := one_placed single numbers other (g := Except.ok) (placed_pure holds)
  have same : (fun us => one item missing us >>= Except.ok) = one item missing := by
    funext us
    cases one item missing us <;> rfl
  rwa [same] at whole

end Tokens

/- The readers of the language. -/

theorem rightSide_omissible (left : Expr) : Omissible (among Expr.operands) fun us =>
    match headKind us with
    | .comparison op => do
      let (right, rest) ← operand us.tail
      return (.compare left op right, rest)
    | _ => return (left, us) := by
  refine (rightSide_opens left).omissible (a := left) (fun us => ?_) (fun t number => ?_) ?_
  · cases us with
    | nil => rfl
    | cons t us => cases kind : t.kind <;> simp [rightSide, headKind, kind]
  · simp [rightSide, number]
  · intro t g chosen
    unfold rightSide at chosen
    split at chosen
    · cases chosen
      refine Site.operand.placed_bind ⟨fun read => ?_, fun failed => ?_⟩
        fun right => placed_pure _ _
      · cases read
        exact ⟨List.suffix_refl _, fun _ => List.mem_cons_of_mem left List.mem_cons_self⟩
      · cases failed
    · cases chosen

theorem expression_placed : Placed (among Expr.operands) expression := by
  refine Site.operand.placed_bind ⟨fun {e ts x rest} read => ?_, fun {e _ _} failed => ?_⟩
    fun left => (rightSide_omissible left).placed
  · refine ⟨(rightSide_omissible e).skips.read read, fun atom => ?_⟩
    simp only at read
    split at read
    · obtain ⟨⟨right, last⟩, _, done⟩ := bind_eq_ok read
      cases done
      exact List.mem_cons_self
    · cases read
      rw [atom]
      exact List.mem_cons_self
  · exact (rightSide_omissible e).skips.refused failed

theorem nextField_placed : Placed nowhere fun us => do
    let (field, rest) ← take .identifier "field name after ','" us
    return (field.text, rest) :=
  identifier_placed _ (not_expected (by decide) (by decide)) fun _ => placed_pure _ _

theorem moreFields_omissible : Omissible nowhere moreFields :=
  moreFields_repeats.omissible_behind (.punctuation .comma) (by simp) (by simp)
    nextField_predictive nextField_placed (fun _ => rfl) (fun never _ _ => never) fun never => never

theorem basicSwitch_omissible : Omissible nowhere basicSwitch := by
  refine omissible_behind (.keyword .basic) (by simp) (by simp) switch_predictive (a := true)
    (take_placed (.comparison .eq) _ (by simp) (by simp) (by simp)
      (not_expected (by decide) (by decide)) fun _ => ?_) fun us => ?_
  · exact one_placed_alone switchValue_single (fun t number => ⟨"'true' or 'false' after 'basic='",
      by simp [switchValue, number]⟩) (not_expected (by decide) (by decide))
  · simp only [basicSwitch, one_switchValue]
    rfl

theorem selection_placed : Placed nowhere selection := by
  refine identifier_placed _ (not_expected (by decide) (by decide)) fun field => ?_
  refine (moreFields_omissible.bind (fun fields => ?_) fun never _ _ => never).placed
  exact basicSwitch_omissible.bind (fun basic => omissible_pure nowhere _) fun never _ _ => never

theorem rowOrder_placed : Placed nowhere rowOrder := by
  rw [funext rowOrder_eq]
  refine one_placed orderWord_single (fun t number => ⟨"'most' or 'least'", by
    simp [orderWord, number]⟩) (not_expected (by decide) (by decide)) fun least => ?_
  exact identifier_placed _ (not_expected (by decide) (by decide)) fun field => placed_pure _ _

def inClause : Uses Clause
  | .operand, _, _, _ => False
  | .count, (n : UInt64), _, c => c = .limit n

/-- A row count is the last one of the clauses, unless the word for it comes again. -/
def inClauses : Uses (List Clause)
  | .operand, _, _, _ => False
  | .count, (n : UInt64), ts, cs =>
    (∀ t ∈ ts, t.kind ≠ .keyword .limit) → (cs.filterMap Clause.limit?).getLast? = some n

theorem clauseBehind_placed (t : Token) (g : Reader Clause) (chosen : clauseBehind t = some g) :
    Placed inClause g := by
  unfold clauseBehind at chosen
  split at chosen
  · cases chosen
    exact selection_placed.bind (fun s => omissible_pure _ _) fun never => never.elim
  · cases chosen
    refine take_placed (.keyword .byWord) _ (by simp) (by simp) (by simp)
      (not_expected (by decide) (by decide)) fun word => ?_
    exact rowOrder_placed.bind (fun o => omissible_pure _ _) fun never => never.elim
  · cases chosen
    exact identifier_placed _ (not_expected (by decide) (by decide)) fun field => placed_pure _ _
  · cases chosen
    exact identifier_placed _ (not_expected (by decide) (by decide)) fun field => placed_pure _ _
  · cases chosen
    refine Site.count.placed_bind ⟨fun read => ?_, fun failed => ?_⟩ fun n => placed_pure _ _
    · cases read
      exact ⟨List.suffix_refl _, rfl⟩
    · cases failed
  · cases chosen

theorem clause?_suffix {c : Clause} (read : clause? ts = some (.ok (c, rest))) : rest <:+ ts := by
  rw [clause?_eq] at read
  obtain ⟨g, opened, read⟩ := Option.map_eq_some_iff.mp read
  obtain ⟨t, head, chosen⟩ := Option.bind_eq_some_iff.mp opened
  obtain ⟨us, rfl⟩ := List.head?_eq_some_iff.mp head
  exact ((clauseBehind_opens.predictive t g chosen).settled us).rest_suffix read |>.trans
    (List.suffix_cons t us)

theorem clause?_limit {n : UInt64} (read : clause? ts = some (.ok (.limit n, rest))) :
    headKind ts = .keyword .limit := by
  unfold clause? at read
  split at read
  · obtain ⟨_, _, done⟩ := bind_eq_ok (Option.some.inj read)
    cases done
  · obtain ⟨_, _, more⟩ := bind_eq_ok (Option.some.inj read)
    obtain ⟨_, _, done⟩ := bind_eq_ok more
    cases done
  · obtain ⟨_, _, done⟩ := bind_eq_ok (Option.some.inj read)
    cases done
  · obtain ⟨_, _, done⟩ := bind_eq_ok (Option.some.inj read)
    cases done
  · assumption
  · cases read

theorem clauses_unlimited (ts : List Token) (unlimited : ∀ t ∈ ts, t.kind ≠ .keyword .limit) :
    ∀ cs rest, clauses ts = .ok (cs, rest) → cs.filterMap Clause.limit? = [] := by
  fun_induction clauses ts with
  | case1 ts none =>
    intro cs rest read
    cases read
    rfl
  | case2 ts r failed =>
    intro cs rest read
    cases read
  | case3 ts c middle found shorter ih =>
    intro cs rest read
    obtain ⟨⟨more, last⟩, inner, done⟩ := bind_eq_ok read
    cases done
    have others := ih (fun t member => unlimited t ((clause?_suffix found).subset member)) _ _ inner
    cases c with
    | selection s => simpa [Clause.limit?] using others
    | order o => simpa [Clause.limit?] using others
    | limit n =>
      obtain ⟨t, word, split⟩ := headKind_split (clause?_limit found) (by simp)
      exact absurd word (unlimited t (by rw [split]; simp))

theorem lastLimit_first (n : UInt64) {cs : List Clause} (none : cs.filterMap Clause.limit? = []) :
    ((Clause.limit n :: cs).filterMap Clause.limit?).getLast? = some n := by
  rw [List.filterMap_cons, none]
  rfl

theorem lastLimit_later (c : Clause) {cs : List Clause} {n : UInt64}
    (found : (cs.filterMap Clause.limit?).getLast? = some n) :
    ((c :: cs).filterMap Clause.limit?).getLast? = some n := by
  cases c with
  | selection s => exact found
  | order o => exact found
  | limit m => simp only [List.filterMap_cons, Clause.limit?, List.getLast?_cons, found,
      Option.getD_some]

theorem clauses_omissible : Omissible inClauses clauses := by
  refine clauses_repeats.omissible clauseBehind_opens clause?_eq
    (fun t number => by simp [clauseBehind, number]) clauseBehind_placed ?_ ?_
  · intro site v ts c rest cs last held behind read
    cases site with
    | operand => exact held
    | count =>
      intro unlimited
      have later := clauses_unlimited rest (fun t member => unlimited t (behind.subset member))
        _ _ read
      cases held
      exact lastLimit_first _ later
  · intro site v ts c cs held
    cases site with
    | operand => exact held
    | count =>
      intro unlimited
      exact lastLimit_later c (held unlimited)

/- Conditions, queries and declarations. -/

theorem among_first {operands : α → List Expr} {site : Site} {v : site.Value} {a : α}
    (held : among operands site v ts a) (as : List α) :
    among (List.flatMap operands) site v ts (a :: as) := by
  cases site with
  | operand => exact fun atom => List.mem_append_left _ (held atom)
  | count => exact held

theorem among_later {operands : α → List Expr} {site : Site} {v : site.Value} {as : List α}
    (held : among (List.flatMap operands) site v ts as) (a : α) :
    among (List.flatMap operands) site v ts (a :: as) := by
  cases site with
  | operand => exact fun atom => List.mem_append_right _ (held atom)
  | count => exact held

theorem moreFilters_omissible : Omissible (among (List.flatMap Expr.operands)) moreFilters :=
  moreFilters_repeats.omissible_behind (.keyword .andWord) (by simp) (by simp)
    expression_predictive expression_placed (fun _ => rfl)
    (fun held _ _ => among_first held _) (fun held => among_later held _)

theorem filters_omissible : Omissible (among (List.flatMap Expr.operands)) filters := by
  refine omissible_behind (.keyword .whereWord) (by simp) (by simp) conditions_predictive
    (expression_placed.bind (fun e => ?_) ?_) fun _ => rfl
  · refine moreFilters_omissible.bind (fun es => omissible_pure _ _) fun held _ read => ?_
    cases read
    exact among_later held e
  · intro site v ts e rest es last held _ read
    obtain ⟨⟨more, middle⟩, _, done⟩ := bind_eq_ok read
    cases done
    exact among_first held more

theorem scope_placed : Placed nowhere scope := by
  rw [funext scope_eq]
  refine one_placed scopeWord_single (fun t number => ⟨"scope after 'get'", by
    simp [scopeWord, number]⟩) (not_expected (by decide) (by decide)) fun found => ?_
  cases found with
  | some s => exact placed_pure _ s
  | none =>
    refine take_placed (.punctuation .leftParen) _ (by simp) (by simp) (by simp)
      (not_expected (by decide) (by decide)) fun left => ?_
    refine take_placed (.keyword .games) _ (by simp) (by simp) (by simp)
      (not_expected (by decide) (by decide)) fun games => ?_
    refine take_placed (.punctuation .rightParen) _ (by simp) (by simp) (by simp)
      (not_expected (by decide) (by decide)) fun right => ?_
    exact placed_pure _ _

def inQuery : Uses Query
  | .operand, (e : Expr), _, q => e.operands = [e] → e ∈ q.operands
  | .count, (n : UInt64), ts, q => (∀ t ∈ ts, t.kind ≠ .keyword .limit) → q.limit = some n

theorem query_placed : Placed inQuery query := by
  refine scope_placed.bind (fun s => ?_) fun never => never.elim
  refine filters_omissible.bind (fun es => ?_) ?_
  · refine clauses_omissible.bind (fun cs => omissible_pure _ _) ?_
    intro site v ts cs rest q last held _ read
    cases read
    rw [foldl_put]
    cases site with
    | operand => exact held.elim
    | count =>
      intro unlimited
      rw [held unlimited]
      rfl
  · intro site v ts es rest q last held _ read
    obtain ⟨⟨cs, middle⟩, _, done⟩ := bind_eq_ok read
    cases done
    rw [foldl_put]
    cases site with
    | operand => exact held
    | count => exact held.elim

def inQuery? : Uses (Option Query) := fun site v ts q =>
  ∃ found, q = some found ∧ inQuery site v ts found

theorem query?_omissible : Omissible inQuery? query? := by
  refine omissible_behind (.keyword .get) (by simp) (by simp) present_predictive
    (query_placed.bind (fun q => omissible_pure _ _) fun held _ read => ?_) fun _ => rfl
  cases read
  exact ⟨_, rfl, held⟩

theorem declaration_placed (kind : Entity) :
    Placed (among Declaration.operands) (declaration kind) := by
  refine identifier_placed _ ?_ fun name => Omissible.placed ?_
  · cases kind <;> exact not_expected (by decide) (by decide)
  · refine omissible_behind (.comparison .eq) (by simp) (by simp)
      (initial_predictive kind name.text)
      (expression_placed.bind (fun e => omissible_pure _ _) ?_) fun us => rfl
    intro site v ts e rest d last held _ read
    cases read
    cases site with
    | operand => exact fun atom => List.mem_append_left _ (held atom)
    | count => exact held

theorem declarations_omissible :
    Omissible (among (List.flatMap Declaration.operands)) declarations := by
  have placed : ∀ t g, Option.map declaration (Token.Kind.entity? (Token.kind t)) = some g →
      Placed (among Declaration.operands) g := by
    intro t g chosen
    obtain ⟨kind, _, rfl⟩ := Option.map_eq_some_iff.mp chosen
    exact declaration_placed kind
  exact declarations_repeats.omissible declaration_opens nextDeclaration?_eq
    (fun t number => by simp [number, Token.Kind.entity?]) placed
    (fun held _ _ => among_first held _) (fun held => among_later held _)

def inProgram : Uses Program
  | .operand, (e : Expr), _, p => e.operands = [e] → e ∈ p.operands
  | .count, (n : UInt64), ts, p =>
    (∀ t ∈ ts, t.kind ≠ .keyword .limit) → ∃ q, p.query = some q ∧ q.limit = some n

theorem programParts_placed : Placed inProgram programParts := by
  refine declarations_omissible.placed.bind (fun ds => ?_) ?_
  · refine query?_omissible.bind (fun q => omissible_pure _ _) ?_
    intro site v ts q rest p last held _ read
    cases read
    obtain ⟨found, rfl, held⟩ := held
    cases site with
    | operand =>
      exact fun atom => List.mem_append_right _ (List.mem_append_left _ (held atom))
    | count => exact fun unlimited => ⟨found, rfl, held unlimited⟩
  · intro site v ts ds rest p last held _ read
    obtain ⟨⟨q, middle⟩, _, done⟩ := bind_eq_ok read
    cases done
    cases site with
    | operand => exact fun atom => List.mem_append_left _ (held atom)
    | count => exact held.elim

def finished (found : Program × List Token) : Attempt (Program × List Token) :=
  if headKind found.2 = .eof then .ok found else refuse (expectedBehind found.1) found.2

theorem finished_skips (p : Program) : Skips fun us => finished (p, us) where
  read {ts _ _} read := by
    unfold finished at read
    split at read <;> cases read
    exact List.suffix_refl ts
  refused {ts _} failed := by
    unfold finished at failed
    split at failed <;> cases failed
    exact List.suffix_refl ts
  absent := ⟨p, rfl⟩
  stops t rest number := .inr ⟨expectedBehind p, if_neg (by simp [headKind, number])⟩

theorem finished_omissible (p : Program) : Omissible inProgram fun us => finished (p, us) := by
  refine ⟨fun front => ?_, finished_skips p⟩
  cases front with
  | nil => exact .bare (.inl ⟨p, rfl⟩) (finished_skips p).stops
  | cons t front =>
    by_cases finish : t.kind = .eof
    · exact .left p (t :: front) fun ts => if_pos finish
    · exact .failed (expectedBehind p) (t :: front) fun ts => if_neg finish

theorem program_placed : Placed inProgram program := by
  have parts : program = fun us => programParts us >>= finished := funext program_eq
  rw [parts]
  refine programParts_placed.bind finished_omissible fun held _ read => ?_
  unfold finished at read
  split at read <;> cases read
  exact held

end Reading
end BoxScore
