import BoxScore.Proofs.Recognition

/- The loops of the reader. Each of them reads items of one sort, one after the other, as
   long as the tokens start another one, so what is known of the items holds of the loop
   by one induction on the tokens. -/
namespace BoxScore.Reading

variable {α : Type}

/-- A loop reads what `item?` starts, and every item takes up some tokens. -/
structure Repeats (item? : List Token → Option (Attempt (α × List Token)))
    (loop : List Token → Attempt (List α × List Token)) : Prop where
  stop : ∀ {ts}, item? ts = none → loop ts = .ok ([], ts)
  step : ∀ {ts attempt}, item? ts = some attempt → loop ts = do
    let (a, rest) ← attempt
    let (as, rest) ← loop rest
    return (a :: as, rest)
  shortens : ∀ {ts a rest}, item? ts = some (.ok (a, rest)) → rest.length < ts.length

def nextField? (ts : List Token) : Option (Attempt (String × List Token)) :=
  if headKind ts = .punctuation .comma then some do
    let (field, rest) ← take .identifier "field name after ','" ts.tail
    return (field.text, rest)
  else none

def nextFilter? (ts : List Token) : Option (Attempt (Expr × List Token)) :=
  if headKind ts = .keyword .andWord then some (expression ts.tail) else none

def nextDeclaration? (ts : List Token) : Option (Attempt (Declaration × List Token)) :=
  (headKind ts).entity?.map (declaration · ts.tail)

theorem tail_length_lt {ts rest : List Token} (shorter : rest.length < ts.tail.length) :
    rest.length < ts.length := by
  rw [List.length_tail] at shorter
  omega

theorem moreFields_repeats : Repeats nextField? moreFields where
  stop none := by
    unfold nextField? at none
    split at none
    · cases none
    · exact moreFields_stop ‹_›
  step {ts attempt} some := by
    unfold nextField? at some
    split at some
    · rename_i comma
      cases some
      rw [moreFields, if_pos comma]
      split
      · rename_i failed
        rw [failed]
        rfl
      · rename_i read
        simp only [read, ok_bind, pure_eq_ok]
    · cases some
  shortens {ts a rest} some := by
    unfold nextField? at some
    split at some
    · obtain ⟨⟨field, behind⟩, read, finish⟩ := bind_eq_ok (Option.some.inj some)
      cases finish
      exact tail_length_lt (take_shortens read)
    · cases some

theorem moreFilters_repeats : Repeats nextFilter? moreFilters where
  stop none := by
    unfold nextFilter? at none
    split at none
    · cases none
    · exact moreFilters_stop ‹_›
  step {ts attempt} some := by
    unfold nextFilter? at some
    split at some
    · rename_i word
      cases some
      rw [moreFilters, if_pos word]
      split
      · rename_i failed
        rw [failed]
        rfl
      · rename_i read
        simp only [read, ok_bind]
    · cases some
  shortens {ts a rest} some := by
    unfold nextFilter? at some
    split at some
    · exact tail_length_lt (expression_shortens (Option.some.inj some))
    · cases some

theorem clauses_repeats : Repeats clause? clauses where
  stop none := clauses_stop none
  step {ts attempt} some := by
    rw [clauses]
    split
    · rename_i none
      rw [none] at some
      cases some
    · rename_i failed
      rw [failed] at some
      cases some
      rfl
    · rename_i again
      rw [again] at some
      cases some
      rfl
  shortens some := clause?_shortens some

theorem declarations_repeats : Repeats nextDeclaration? declarations where
  stop none := declarations_stop (Option.map_eq_none_iff.mp none)
  step {ts attempt} some := by
    obtain ⟨kind, head, rfl⟩ := Option.map_eq_some_iff.mp some
    rw [declarations]
    split
    · rename_i none
      rw [none] at head
      cases head
    · rename_i other same
      rw [head] at same
      cases same
      split
      · rename_i failed
        rw [failed]
        rfl
      · rename_i read
        simp only [read, ok_bind]
  shortens some := by
    obtain ⟨kind, _, read⟩ := Option.map_eq_some_iff.mp some
    exact tail_length_lt (declaration_shortens read)

end BoxScore.Reading
