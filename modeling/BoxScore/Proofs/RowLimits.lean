import BoxScore.Proofs.Noninterference

/- What a limit on rows and the clauses of a query can change. A default limit does not
   decide whether a text compiles, and shows only at the end of the statement of a query
   about games that sets no limit itself. Averages have one row, so what a query about them
   says on columns, order and limit is dropped. -/
namespace BoxScore

open Sql

def Query.isOpen (q : Query) : Bool := q.scope = .games && q.limit.isNone

def Program.isOpen (p : Program) : Bool := p.query.any Query.isOpen

def Plan.limited (plan : Plan) (count : UInt64) : Plan :=
  { plan with sql := plan.sql ++ " LIMIT " ++ toString count.toNat }

namespace Plan

variable (r : Roster) (count : UInt64) (q : Query) (filters : List (Term Value))

theorem ofSelect_limited (s : Select Value) (free : s.limit = none) :
    ofSelect r q { s with limit := some count } = (ofSelect r q s).limited count := by
  have text : { s with limit := some count }.text =
      s.text ++ " LIMIT " ++ toString count.toNat := by
    simp only [Select.text, Select.clauses, Clauses.text, free, String.append_assoc,
      String.append_empty]
    rfl
  simp only [ofSelect, limited, text]
  rfl

theorem gamesSelect_limited (games : q.scope = .games) :
    ofSelect r q (gamesSelect r (some count) q filters) =
      if q.isOpen then (ofSelect r q (gamesSelect r none q filters)).limited count
      else ofSelect r q (gamesSelect r none q filters) := by
  cases asked : q.limit with
  | none =>
    have free : (gamesSelect r none q filters).limit = none := by simp [gamesSelect, asked]
    have capped : gamesSelect r (some count) q filters =
        { gamesSelect r none q filters with limit := some count } := by
      simp [gamesSelect, asked]
    rw [if_pos (by simp [Query.isOpen, games, asked]), capped, ofSelect_limited r count q _ free]
  | some own =>
    have same : gamesSelect r (some count) q filters = gamesSelect r none q filters := by
      simp [gamesSelect, asked]
    rw [if_neg (by simp [Query.isOpen, asked]), same]

theorem ofQuery_limited :
    ofQuery r (some count) q =
      (ofQuery r none q).map fun plan => if q.isOpen then plan.limited count else plan := by
  rw [ofQuery, ofQuery]
  cases scope : q.scope with
  | games =>
    cases r.conditions q.filters with
    | error fault => rfl
    | ok filters => exact congrArg Except.ok (gamesSelect_limited r count q filters scope)
  | averageGames =>
    have closed : ¬ q.isOpen := by simp [Query.isOpen, scope]
    cases r.conditions q.filters with
    | error fault => rfl
    | ok filters => exact congrArg Except.ok (if_neg closed).symm
  | _ => rfl

theorem ofQuery_averages (limit : Option UInt64) (averages : q.scope = .averageGames)
    (selection : Option Selection) (order : Option RowOrder) (rows : Option UInt64) :
    ofQuery r limit { q with selection := selection, order := order, limit := rows } =
      ofQuery r limit q := by
  cases q
  cases averages
  rfl

end Plan

theorem plan_limited (p : Program) (count : UInt64) :
    p.plan (some count) =
      (p.plan none).map fun plan => if p.isOpen then plan.limited count else plan := by
  rw [Program.plan, Program.plan]
  cases p.roster with
  | error fault => rfl
  | ok r =>
    obtain ⟨declarations, query⟩ := p
    cases query with
    | none => rfl
    | some q => exact Plan.ofQuery_limited r count q

theorem compile_of_parsed {source : String} {program : Program} {settings : Settings}
    (parsed : Program.parse source = .ok program)
    (short : source.utf8ByteSize ≤ settings.maxSourceBytes) :
    compile settings source = program.plan settings.defaultLimit := by
  rw [compile, if_neg (Nat.not_lt.mpr short), parsed]
  rfl

/-- A text that stops before its plan stops whatever the limit is; behind a program, the
    limit is seen by the plan alone. -/
theorem compile_limited (source : String) (bytes : Nat) (count : UInt64) :
    (∃ fault, ∀ limit, compile ⟨limit, bytes⟩ source = .error fault) ∨
      ∃ program, Program.parse source = .ok program ∧ compile ⟨some count, bytes⟩ source =
        (compile ⟨none, bytes⟩ source).map fun plan =>
          if program.isOpen then plan.limited count else plan := by
  by_cases long : bytes < source.utf8ByteSize
  · refine Or.inl ⟨.sourceTooLarge source.utf8ByteSize bytes, fun limit => ?_⟩
    rw [compile, if_pos long]
  · have short := Nat.not_lt.mp long
    cases parsed : Program.parse source with
    | error fault =>
      refine Or.inl ⟨fault, fun limit => ?_⟩
      rw [compile, if_neg long, parsed]
      rfl
    | ok program =>
      refine Or.inr ⟨program, rfl, ?_⟩
      rw [compile_of_parsed parsed short, compile_of_parsed parsed short]
      exact plan_limited program count

/-- A default limit changes nothing but the end of a statement about games that sets no
    limit; columns, order and limit of a query about averages change nothing at all. -/
theorem limit_and_dropped_clauses :
    (∀ source bytes count,
      (∀ fault, compile ⟨some count, bytes⟩ source = .error fault ↔
        compile ⟨none, bytes⟩ source = .error fault) ∧
      ∀ plan, compile ⟨none, bytes⟩ source = .ok plan →
        ∃ program, Program.parse source = .ok program ∧ compile ⟨some count, bytes⟩ source =
          .ok (if program.isOpen then plan.limited count else plan)) ∧
    ∀ p : Program, ∀ q, p.query = some q → q.scope = .averageGames →
      ∀ selection order rows limit, Program.plan limit { p with
        query := some { q with selection := selection, order := order, limit := rows } } =
          p.plan limit := by
  constructor
  · intro source bytes count
    rcases compile_limited source bytes count with ⟨fault, stopped⟩ | ⟨program, parsed, limited⟩
    · rw [stopped, stopped]
      exact ⟨fun _ => Iff.rfl, nofun⟩
    · rw [limited]
      cases planned : compile ⟨none, bytes⟩ source with
      | error fault => exact ⟨fun _ => Iff.rfl, nofun⟩
      | ok plan =>
        refine ⟨fun fault => ⟨nofun, nofun⟩, ?_⟩
        intro found same
        cases same
        exact ⟨program, parsed, rfl⟩
  · intro p q asked averages selection order rows limit
    rw [Program.plan, Program.plan, asked]
    exact congrArg _ (funext fun r =>
      Plan.ofQuery_averages r q limit averages selection order rows)

end BoxScore
