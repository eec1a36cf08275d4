import BoxScore.Proofs.StatementNames

/- The parameters of a plan. Each value that a program binds has one placeholder, and the
   placeholders are numbered in the order of the values: first the players declared with a
   literal, then the literals of the conditions. -/
namespace BoxScore

open Sql Grammar

def Season.days (s : Season) : List Value := [.string s.first.iso, .string s.last.iso]

def Declaration.playerValue? (d : Declaration) : Option Value :=
  match d.kind, d.initial with
  | .player, some (.literal value _) => some value
  | _, _ => none

namespace Expr

def literals : Expr → List Value
  | .compare left _ right => left.literals ++ right.literals
  | .literal value _ => [value]
  | .field _ _ | .name _ => []
  | .aggregate _ argument => argument.literals

def seasonValue? : Expr → Option Value
  | .compare (.name "season") .eq (.literal value _) => some value
  | _ => none

def filterValues (e : Expr) : List Value :=
  match e.seasonValue? with
  | some value => (Season.ofName? value.text).toList.flatMap Season.days
  | none => e.literals

/-- What an expression binds when seasons may stand anywhere in it. -/
def values : Expr → List Value
  | .compare left op right =>
    match Roster.seasonLiteral? left op right with
    | some value => (Season.ofName? value.text).toList.flatMap Season.days
    | none => left.values ++ right.values
  | .literal value _ => [value]
  | .field _ _ | .name _ => []
  | .aggregate _ argument => argument.values

theorem seasonLiteral?_eq (left right : Expr) (op : Comparison) :
    Roster.seasonLiteral? left op right = (Expr.compare left op right).seasonValue? := by
  unfold Roster.seasonLiteral? seasonValue?
  split <;> simp_all

end Expr

/- Operands are flat: only a comparison of operands can ask for a season. -/

theorem operand_values {t : Token} {e : Expr} (derived : IsOperand t e) :
    e.values = e.literals ∧ e.seasonValue? = none := by
  cases derived <;> exact ⟨rfl, rfl⟩

theorem expression_values {ts : List Token} {e : Expr} (derived : IsExpression ts e) :
    e.values = e.filterValues := by
  cases derived with
  | operand single =>
    obtain ⟨same, none⟩ := operand_values single
    rw [Expr.filterValues, none, same]
  | compare first sign second =>
    rw [Expr.values, Expr.seasonLiteral?_eq, (operand_values first).1, (operand_values second).1]
    rfl

theorem filters_expressions {ts : List Token} {es : List Expr} (derived : IsFilters ts es) :
    ∀ e ∈ es, ∃ us, IsExpression us e := by
  cases derived with
  | absent => simp
  | present word first more =>
    refine List.forall_mem_cons.mpr ⟨⟨_, first⟩, ?_⟩
    intro e later
    obtain ⟨us, _, item⟩ := more.item e later
    cases item with
    | mk word expression => exact ⟨_, expression⟩

theorem parsed_filters {source : String} {p : Program} {q : Query}
    (parsed : Program.parse source = .ok p) (asked : p.query = some q) :
    ∀ e ∈ q.filters, ∃ us, IsExpression us e := by
  obtain ⟨ts, admitted, derived⟩ := parse_derived parsed
  cases derived with
  | mk first last =>
    cases last with
    | absent => cases asked
    | present written =>
      cases asked
      cases written with
      | mk word about conditions more => exact filters_expressions conditions

namespace Roster

theorem fieldTerm_shape {α : Type} {r : Roster} {owner field : String} {t : Term α}
    (read : r.fieldTerm owner field = .ok t) :
    t = .always ∨ (∃ table, t = .fullName table) ∨ ∃ table column, t = .column table column := by
  unfold fieldTerm at read
  repeat' split at read
  all_goals cases read
  all_goals simp

theorem compareTerm_values (r : Roster) (left right : Expr) (op : Comparison)
    {leftTerm rightTerm : Term Value} (first : leftTerm.values = left.values)
    (second : rightTerm.values = right.values) :
    (r.compareTerm left op right leftTerm rightTerm).values = left.values ++ right.values := by
  -- The two comparisons that drop what was read are between operands without values.
  rcases r.compareTerm_cases left right op leftTerm rightTerm with
    ⟨a, b, rfl, rfl, _, _, _, same⟩ | ⟨owner, other, rfl, rfl, _, same⟩ | same
  · rw [same]
    rfl
  · rw [same]
    rfl
  · rw [same]
    split <;> simp [Term.values, first, second]

theorem term_values {r : Roster} {e : Expr} {t : Term Value} (read : r.term e = .ok t) :
    t.values = e.values := by
  induction e generalizing t with
  | compare left op right leftIH rightIH =>
    unfold term at read
    split at read
    · rename_i value asked
      split at read <;> cases read
      rename_i s found
      simp [Expr.values, asked, found, seasonTerm, Term.values, Season.days]
    · rename_i asked
      obtain ⟨leftTerm, first, afterFirst⟩ := Reading.bind_eq_ok read
      obtain ⟨rightTerm, second, finish⟩ := Reading.bind_eq_ok afterFirst
      cases finish
      rw [Expr.values, asked]
      exact compareTerm_values r left right op (leftIH first) (rightIH second)
  | field owner f =>
    rcases fieldTerm_shape read with rfl | ⟨table, rfl⟩ | ⟨table, column, rfl⟩ <;> rfl
  | literal value kind =>
    cases read
    rfl
  | name text =>
    cases read
    unfold nameTerm
    split <;> rfl
  | aggregate f argument ih =>
    obtain ⟨inner, first, finish⟩ := Reading.bind_eq_ok read
    cases finish
    simpa only [Term.values, Expr.values] using ih first

theorem season_known {r : Roster} {e : Expr} {t : Term Value} (read : r.term e = .ok t)
    {value : Value} (asked : e.seasonValue? = some value) :
    ∃ s, Season.ofName? value.text = some s := by
  cases e with
  | compare left op right =>
    unfold term at read
    rw [Expr.seasonLiteral?_eq, asked] at read
    simp only at read
    split at read
    · exact ⟨_, ‹_›⟩
    · cases read
  | _ => cases asked

theorem filterTerms_seasons {r : Roster} {es : List Expr} {ts : List (Term Value)}
    (read : List.Forall₂ (fun e t => r.term e = .ok t) es ts) :
    ∀ e ∈ es, ∀ value, e.seasonValue? = some value → ∃ s, Season.ofName? value.text = some s := by
  induction read with
  | nil => simp
  | cons first rest ih =>
    refine List.forall_mem_cons.mpr ⟨?_, ih⟩
    intro value asked
    exact season_known first asked

theorem filterTerms_values {r : Roster} {es : List Expr} {ts : List (Term Value)}
    (read : List.Forall₂ (fun e t => r.term e = .ok t) es ts) :
    Sql.values ts = es.flatMap Expr.values := by
  induction read with
  | nil => rfl
  | cons first rest ih =>
    rw [Sql.values, List.flatMap_cons, List.flatMap_cons, term_values first, ← ih, Sql.values]

theorem relationCondition_values {r : Roster} {b : Binding} {t : Term Value}
    (tied : r.relationCondition b = some t) : t.values = [] := by
  unfold relationCondition at tied
  split at tied
  · cases tied
  · split at tied <;> cases tied <;> rfl

theorem relationConditions_bare (r : Roster) :
    ∀ t ∈ r.entries.filterMap r.relationCondition, t.values = [] := by
  intro t member
  obtain ⟨b, _, tied⟩ := List.mem_filterMap.mp member
  exact relationCondition_values tied

theorem sameGameChain_bare (r : Roster) :
    ∀ t ∈ (r.sameGameChain : List (Term Value)), t.values = [] := by
  intro t member
  obtain ⟨⟨a, b⟩, _, rfl⟩ := List.mem_map.mp member
  rfl

theorem literalCondition_binding (r : Roster) (d : Declaration) :
    r.literalCondition d.binding = d.playerValue?.map fun value =>
      .compare (.fullName (r.aliasing.stats d.name)) .eq (.parameter value) := by
  obtain ⟨kind, name, initial⟩ := d
  cases kind with
  | player =>
    match initial with
    | some (.literal value kind) => rfl
    | some (.field owner relation) =>
      simp only [literalCondition, Declaration.binding, Declaration.playerValue?]
      cases Relation.ofSpelling? relation <;> rfl
    | none | some (.compare ..) | some (.name _) | some (.aggregate ..) => rfl
  | _ => rfl

theorem literalConditions_values (r : Roster) (ds : List Declaration) :
    Sql.values ((ds.map Declaration.binding).filterMap r.literalCondition) =
      ds.filterMap Declaration.playerValue? := by
  induction ds with
  | nil => rfl
  | cons d ds ih =>
    rw [List.map_cons, List.filterMap_cons, List.filterMap_cons, literalCondition_binding]
    cases d.playerValue? with
    | none => exact ih
    | some value => exact congrArg (value :: ·) ih

theorem bindingConditions_values {p : Program} {r : Roster} (entered : p.roster = .ok r) :
    Sql.values r.bindingConditions = p.declarations.filterMap Declaration.playerValue? := by
  have related : Sql.values (r.entries.filterMap r.relationCondition) = [] :=
    List.flatMap_eq_nil_iff.mpr r.relationConditions_bare
  have chained : Sql.values (r.sameGameChain : List (Term Value)) = [] :=
    List.flatMap_eq_nil_iff.mpr r.sameGameChain_bare
  have split : Sql.values r.bindingConditions =
      Sql.values (r.entries.filterMap r.literalCondition) ++
        Sql.values (r.entries.filterMap r.relationCondition) ++ Sql.values r.sameGameChain := by
    simp [bindingConditions, Sql.values]
  rw [split, related, chained, roster_ok entered, literalConditions_values]
  simp

end Roster

theorem query_parameters {p : Program} {r : Roster} (entered : p.roster = .ok r)
    {limit : Option UInt64} {q : Query} {plan : Plan} (planned : Plan.ofQuery r limit q = .ok plan) :
    plan.parameters =
      p.declarations.filterMap Declaration.playerValue? ++ q.filters.flatMap Expr.values := by
  obtain ⟨_, own, read, rfl⟩ := ofQuery_ok planned
  have conditions : (Plan.select r limit q (r.bindingConditions ++ own)).filters =
      r.bindingConditions ++ own := by
    unfold Plan.select
    split <;> rfl
  calc Sql.values (Plan.select r limit q (r.bindingConditions ++ own)).filters
      = Sql.values r.bindingConditions ++ Sql.values own := by
        rw [conditions, Sql.values, List.flatMap_append, Sql.values, Sql.values]
    _ = _ := by
        rw [Roster.bindingConditions_values entered, Roster.filterTerms_values read]

/-- The placeholders of a compiled text are numbered from one on, and the parameters are
    the literals of the players and then what the conditions bind, seasons by their days. -/
theorem placeholders_match_parameters {settings : Settings} {source : String} {plan : Plan}
    (compiled : compile settings source = .ok plan) :
    placeholders plan.sql.toList = (List.range' 1 plan.parameters.length).map toString ∧
      ∃ program, Program.parse source = .ok program ∧ ∀ q, program.query = some q →
        (∀ e ∈ q.filters, ∀ value, e.seasonValue? = some value →
          ∃ s, Season.ofName? value.text = some s) ∧
        plan.parameters = program.declarations.filterMap Declaration.playerValue? ++
          q.filters.flatMap Expr.filterValues := by
  constructor
  · rcases compile_names naming_clear compiled with ⟨text, values⟩ | ⟨s, text, values, clear⟩
    · rw [text, values]
      rfl
    · rw [text, values, s.placeholders_text clear]
  · obtain ⟨program, roster, parsed, entered, planned⟩ := compile_ok compiled
    refine ⟨program, parsed, fun q asked => ?_⟩
    rw [asked] at planned
    have flat := parsed_filters parsed asked
    obtain ⟨_, own, read, _⟩ := ofQuery_ok planned
    constructor
    · exact Roster.filterTerms_seasons read
    · rw [query_parameters entered planned]
      congr 1
      refine List.flatMap_congr fun e member => ?_
      obtain ⟨us, derived⟩ := flat e member
      exact expression_values derived

theorem player_and_season_numbered :
    ∃ plan, compile .standard
        "Player p = Curry get games where 20 < p.points and season = \"2023-24\"" = .ok plan ∧
      plan.parameters =
        [.string "Curry", .int 20, .string "2023-10-17", .string "2024-06-17"] ∧
      placeholders plan.sql.toList = ["1", "2", "3", "4"] := by
  have values : (compile .standard
      "Player p = Curry get games where 20 < p.points and season = \"2023-24\"").map
        Plan.parameters =
      .ok [.string "Curry", .int 20, .string "2023-10-17", .string "2024-06-17"] := by
    decide +kernel
  cases compiled : compile .standard
      "Player p = Curry get games where 20 < p.points and season = \"2023-24\"" with
  | error fault =>
    rw [compiled] at values
    cases values
  | ok plan =>
    rw [compiled] at values
    have same : plan.parameters =
        [.string "Curry", .int 20, .string "2023-10-17", .string "2024-06-17"] :=
      Except.ok.inj values
    have numbers := (placeholders_match_parameters compiled).1
    rw [same] at numbers
    exact ⟨plan, rfl, same, numbers⟩

end BoxScore
