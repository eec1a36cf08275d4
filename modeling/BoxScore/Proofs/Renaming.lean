import BoxScore.Proofs.JoinedTables
import BoxScore.Proofs.Parameters
import BoxScore.Proofs.WellDeclared
import Mathlib.Data.Set.Function

/- Variable names are only names. A program whose variables are renamed, apart from each
   other and from all words that its conditions use alone, is entered and planned as
   before; while all variables share one join, not even the text of the plan shows what
   they are called. -/
namespace BoxScore

open Sql

/-- Renames the variables whose fields an expression reads. Words that stand alone are no
    variables and stay. -/
def Expr.rename (newName : String → String) : Expr → Expr
  | .compare left op right => .compare (left.rename newName) op (right.rename newName)
  | .field owner f => .field (newName owner) f
  | .literal value kind => .literal value kind
  | .name text => .name text
  | .aggregate f argument => .aggregate f (argument.rename newName)

def Declaration.rename (newName : String → String) (d : Declaration) : Declaration :=
  ⟨d.kind, newName d.name, d.initial.map (Expr.rename newName)⟩

def Query.rename (newName : String → String) (q : Query) : Query :=
  { q with filters := q.filters.map (Expr.rename newName) }

def Program.rename (newName : String → String) (p : Program) : Program :=
  ⟨p.declarations.map (Declaration.rename newName), p.query.map (Query.rename newName)⟩

def Expr.bareNames : Expr → List String
  | .compare left _ right => left.bareNames ++ right.bareNames
  | .name text => [text]
  | .aggregate _ argument => argument.bareNames
  | .field _ _ | .literal _ _ => []

def Query.bareNames (q : Query) : List String := q.filters.flatMap Expr.bareNames

def Program.variables (p : Program) : List String := p.declarations.map Declaration.name

/-- A renaming that keeps the variables of a program apart, and for which no word that
    stands alone in a condition is a variable before or after. -/
structure Program.Renames (p : Program) (newName : String → String) : Prop where
  injective : Set.InjOn newName {name | name ∈ p.variables}
  clear : ∀ q ∈ p.query, ∀ text ∈ q.bareNames,
    text ∉ p.variables ∧ text ∉ p.variables.map newName

def Target.rename (newName : String → String) : Target → Target
  | .unbound => .unbound
  | .literal value => .literal value
  | .related relation source => .related relation (newName source)

def Binding.rename (newName : String → String) (b : Binding) : Binding :=
  ⟨newName b.name, b.kind, b.target.rename newName⟩

variable {newName : String → String}

/- What does not depend on names. -/

theorem Roster.seasonLiteral?_rename (left right : Expr) (op : Comparison) :
    seasonLiteral? (left.rename newName) op (right.rename newName) =
      seasonLiteral? left op right := by
  cases left with
  | name text => cases right <;> simp [Expr.rename, seasonLiteral?]
  | _ => rfl

theorem Expr.rename_values (e : Expr) : (e.rename newName).values = e.values := by
  induction e with
  | compare left op right leftIH rightIH =>
    simp only [rename, values, Roster.seasonLiteral?_rename, leftIH, rightIH]
  | aggregate f argument ih => exact ih
  | _ => rfl

theorem Expr.rename_fields (e : Expr) : (e.rename newName).fields = e.fields := by
  induction e with
  | compare left op right leftIH rightIH => simp only [rename, fields, leftIH, rightIH]
  | aggregate f argument ih => exact ih
  | _ => rfl

theorem Query.rename_referencedFields (q : Query) :
    (q.rename newName).referencedFields = q.referencedFields := by
  simp only [referencedFields, rename, List.flatMap_map, Expr.rename_fields]

theorem Declaration.rename_playerValue? (d : Declaration) :
    (d.rename newName).playerValue? = d.playerValue? := by
  obtain ⟨kind, name, initial⟩ := d
  match initial with
  | none | some (.literal ..) | some (.field ..) | some (.compare ..) | some (.name _)
  | some (.aggregate ..) => cases kind <;> rfl

theorem Declaration.rename_binding (d : Declaration) :
    (d.rename newName).binding = d.binding.rename newName := by
  obtain ⟨kind, name, initial⟩ := d
  match initial with
  | some (.field owner f) =>
    simp only [rename, binding, Binding.rename, Option.map_some, Expr.rename]
    cases Relation.ofSpelling? f <;> rfl
  | none | some (.literal ..) | some (.compare ..) | some (.name _) | some (.aggregate ..) => rfl

/- Declarations stay well declared. -/

theorem Declaration.rename_initial_field {d : Declaration} {owner field : String}
    (initial : (d.rename newName).initial = some (.field owner field)) :
    ∃ old, d.initial = some (.field old field) ∧ owner = newName old := by
  obtain ⟨e, written, renamed⟩ := Option.map_eq_some_iff.mp initial
  cases e with
  | field old f =>
    cases renamed
    exact ⟨old, written, rfl⟩
  | _ => cases renamed

theorem WellDeclared.rename {ds : List Declaration} (well : WellDeclared ds)
    (injective : Set.InjOn newName {name | name ∈ ds.map Declaration.name}) :
    WellDeclared (ds.map (Declaration.rename newName)) where
  distinct := by
    have names : (ds.map (Declaration.rename newName)).map Declaration.name =
        (ds.map Declaration.name).map newName := by
      rw [List.map_map, List.map_map]
      rfl
    rw [names]
    exact well.distinct.map_on fun a first b second same => injective first second same
  tied before d after owner field split initial := by
    obtain ⟨front, more, rfl, rfl, rest⟩ := List.map_eq_append_iff.mp split
    obtain ⟨e, back, rfl, rfl, rfl⟩ := List.map_eq_cons_iff.mp rest
    obtain ⟨old, written, rfl⟩ := Declaration.rename_initial_field initial
    obtain ⟨s, earlier, rfl, relation, spelled, compatible⟩ :=
      well.tied front e back old field rfl written
    exact ⟨s.rename newName, List.mem_map_of_mem earlier, rfl, relation, spelled, compatible⟩

theorem Program.rename_roster {p : Program} {r : Roster} (entered : p.roster = .ok r)
    (injective : Set.InjOn newName {name | name ∈ p.variables}) :
    ∃ s, (p.rename newName).roster = .ok s ∧
      s.entries = r.entries.map (Binding.rename newName) := by
  have well := (roster_entered_iff p).mp ⟨r, entered⟩
  obtain ⟨s, renamed⟩ := (roster_entered_iff (p.rename newName)).mpr (well.rename injective)
  refine ⟨s, renamed, ?_⟩
  rw [roster_ok renamed, roster_ok entered]
  simp only [Program.rename, List.map_map]
  exact List.map_congr_left fun d _ => d.rename_binding

/- The roster of a renamed program. -/

namespace Binding

@[simp]
theorem rename_name (b : Binding) : (b.rename newName).name = newName b.name := rfl

@[simp]
theorem rename_kind (b : Binding) : (b.rename newName).kind = b.kind := rfl

@[simp]
theorem rename_isPlayer (b : Binding) : (b.rename newName).isPlayer = b.isPlayer := rfl

@[simp]
theorem rename_isRelated (b : Binding) : (b.rename newName).isRelated = b.isRelated := by
  obtain ⟨name, kind, target⟩ := b
  cases target <;> rfl

end Binding

namespace Roster

/- With one join for all, a field is read by the kind of its variable alone. -/

def sharedField (kind : Entity) (field : String) : Term Value :=
  match kind with
  | .player =>
    if field = "played" then .always
    else if field = "name" then .fullName "players"
    else .column Schema.statisticsTable (Schema.column .player field)
  | kind => .column Schema.gamesTable (Schema.column kind field)

theorem relation?_of_shared {r : Roster} {b : Binding} (shared : r.aliasing = .shared)
    (entry : b ∈ r.entries) : b.relation? = none := by
  cases tied : b.relation? with
  | none => rfl
  | some pair =>
    have own := perVariable_of_tied entry tied
    rw [shared] at own
    cases own

theorem fieldTerm_shared {r : Roster} {owner : String} {b : Binding} (shared : r.aliasing = .shared)
    (found : r.find? owner = some b) (field : String) :
    r.fieldTerm owner field = .ok (sharedField b.kind field) := by
  have free := relation?_of_shared shared ((find?_eq_some_iff r owner b).mp found).1
  cases kind : b.kind with
  | player =>
    simp only [fieldTerm, lookup, found, kind, shared, sharedField]
    split
    · rfl
    · split <;> rfl
  | team => simp [fieldTerm, lookup, found, kind, free, sharedField]
  | opponent => simp [fieldTerm, lookup, found, kind, free, Binding.isRelatedBy, sharedField]

theorem bindingConditions_shared {r : Roster} (shared : r.aliasing = .shared) :
    r.bindingConditions = r.entries.filterMap r.literalCondition := by
  have untied : r.entries.filterMap r.relationCondition = [] := by
    apply List.filterMap_eq_nil_iff.mpr
    intro b entry
    rw [relationCondition, relation?_of_shared shared entry]
  have unchained : (r.sameGameChain : List (Term Value)) = [] := by
    apply List.eq_nil_iff_forall_not_mem.mpr
    intro t chained
    have own := perVariable_of_sameGame chained
    rw [shared] at own
    cases own
  rw [bindingConditions, untied, unchained, List.append_nil, List.append_nil]

section Renamed

variable {r s : Roster} (renamed : s.entries = r.entries.map (Binding.rename newName))

include renamed

theorem renamed_find? {name : String} {b : Binding} (found : r.find? name = some b) :
    s.find? (newName name) = some (b.rename newName) := by
  obtain ⟨entry, rfl⟩ := (find?_eq_some_iff r name b).mp found
  apply (find?_eq_some_iff s _ _).mpr
  exact ⟨renamed ▸ List.mem_map_of_mem entry, rfl⟩

theorem renamed_players : s.players = r.players.map newName := by
  simp [players, renamed, List.filter_map, Function.comp_def]

theorem renamed_hasRelated : s.hasRelated = r.hasRelated := by
  simp [hasRelated, renamed, List.any_map, Function.comp_def]

theorem renamed_aliasing : s.aliasing = r.aliasing := by
  rw [aliasing, aliasing, playerCount_eq, playerCount_eq, renamed_players renamed,
    renamed_hasRelated renamed, List.length_map]

theorem renamed_readsStat {e : Expr} {t : Term Value} (read : r.term e = .ok t) :
    s.readsStat (e.rename newName) = r.readsStat e := by
  cases e with
  | field owner f =>
    obtain ⟨b, found⟩ := find?_of_fieldTerm read
    simp [Expr.rename, readsStat, found, renamed_find? renamed found]
  | _ => rfl

omit renamed in
theorem renamed_compareTerm {left right : Expr} (op : Comparison)
    (same : s.readsStat (left.rename newName) = r.readsStat left)
    (clear : ∀ text ∈ left.bareNames, r.isPlayer text = false ∧ s.isPlayer text = false)
    (leftTerm rightTerm : Term Value) :
    s.compareTerm (left.rename newName) op (right.rename newName) leftTerm rightTerm =
      r.compareTerm left op right leftTerm rightTerm := by
  unfold compareTerm
  rw [same]
  cases left with
  | name a =>
    obtain ⟨before, after⟩ := clear a (by simp [Expr.bareNames])
    cases right with
    | name b => simp [Expr.rename, before, after]
    | _ => rfl
  | field owner f => cases right <;> rfl
  | _ => rfl

theorem renamed_term {e : Expr} {t : Term Value} (read : r.term e = .ok t)
    (clear : ∀ text ∈ e.bareNames, r.isPlayer text = false ∧ s.isPlayer text = false) :
    ∃ u, s.term (e.rename newName) = .ok u ∧ (r.aliasing = .shared → u = t) := by
  induction e generalizing t with
  | compare left op right leftIH rightIH =>
    rw [Expr.rename, term, seasonLiteral?_rename]
    unfold term at read
    split at read
    · rename_i value asked
      exact ⟨t, by simpa [asked] using read, fun _ => rfl⟩
    · rename_i asked
      obtain ⟨leftTerm, first, afterFirst⟩ := Reading.bind_eq_ok read
      obtain ⟨rightTerm, second, finish⟩ := Reading.bind_eq_ok afterFirst
      cases finish
      have leftClear := fun text member => clear text (List.mem_append_left _ member)
      have rightClear := fun text member => clear text (List.mem_append_right _ member)
      obtain ⟨leftNew, firstNew, leftSame⟩ := leftIH first leftClear
      obtain ⟨rightNew, secondNew, rightSame⟩ := rightIH second rightClear
      refine ⟨s.compareTerm (left.rename newName) op (right.rename newName) leftNew rightNew, ?_, ?_⟩
      · simp only [firstNew, secondNew]
        rfl
      · intro shared
        rw [leftSame shared, rightSame shared]
        exact renamed_compareTerm op (renamed_readsStat renamed first) leftClear _ _
  | field owner f =>
    obtain ⟨b, found⟩ := find?_of_fieldTerm read
    have foundNew := renamed_find? renamed found
    obtain ⟨u, readNew⟩ := fieldTerm_of_find? foundNew f
    refine ⟨u, readNew, fun shared => ?_⟩
    have before := fieldTerm_shared shared found f
    have after := fieldTerm_shared ((renamed_aliasing renamed).trans shared) foundNew f
    rw [term, before] at read
    rw [after] at readNew
    exact (Except.ok.inj readNew).symm.trans (Except.ok.inj read)
  | literal value kind => exact ⟨t, read, fun _ => rfl⟩
  | name text => exact ⟨t, read, fun _ => rfl⟩
  | aggregate f argument ih =>
    obtain ⟨inner, first, finish⟩ := Reading.bind_eq_ok read
    cases finish
    obtain ⟨innerNew, firstNew, same⟩ := ih first clear
    refine ⟨.aggregate f innerNew, ?_, fun shared => by rw [same shared]⟩
    rw [Expr.rename, term, firstNew]
    rfl

theorem renamed_terms {es : List Expr} {ts : List (Term Value)}
    (read : List.Forall₂ (fun e t => r.term e = .ok t) es ts)
    (clear : ∀ e ∈ es, ∀ text ∈ e.bareNames, r.isPlayer text = false ∧ s.isPlayer text = false) :
    ∃ us, List.Forall₂ (fun e u => s.term e = .ok u) (es.map (Expr.rename newName)) us ∧
      (r.aliasing = .shared → us = ts) := by
  induction read with
  | nil => exact ⟨[], .nil, fun _ => rfl⟩
  | cons first rest ih =>
    rw [List.forall_mem_cons] at clear
    obtain ⟨u, firstNew, same⟩ := renamed_term renamed first clear.1
    obtain ⟨us, restNew, others⟩ := ih clear.2
    exact ⟨u :: us, .cons firstNew restNew, fun shared => by rw [same shared, others shared]⟩

theorem renamed_bindingConditions (shared : r.aliasing = .shared) :
    s.bindingConditions = r.bindingConditions := by
  have sharedNew := (renamed_aliasing renamed).trans shared
  rw [bindingConditions_shared shared, bindingConditions_shared sharedNew, renamed,
    List.filterMap_map]
  apply List.filterMap_congr
  intro b _
  obtain ⟨name, kind, target⟩ := b
  cases kind with
  | player =>
    cases target <;>
      simp [literalCondition, Binding.rename, Target.rename, shared, sharedNew, Aliasing.stats]
  | _ => rfl

theorem renamed_joins (shared : r.aliasing = .shared) : s.joins = r.joins := by
  have kinds : s.hasKind = r.hasKind := by
    funext kind
    simp [hasKind, renamed, List.any_map, Function.comp_def]
  rw [joins, joins, renamed_aliasing renamed, shared]
  simp only [sharedJoins, kinds]

theorem renamed_standard (shared : r.aliasing = .shared) (referenced : List String) :
    Projection.standard s referenced = Projection.standard r referenced := by
  simp only [Projection.standard, renamed_players renamed, renamed_aliasing renamed, shared]
  cases r.players <;> rfl

theorem renamed_select (shared : r.aliasing = .shared) (limit : Option UInt64) (q : Query)
    (filters : List (Term Value)) :
    Plan.select s limit (q.rename newName) filters = Plan.select r limit q filters := by
  have projection := renamed_standard renamed shared q.referencedFields
  have joined := renamed_joins renamed shared
  simp only [Plan.select, Plan.gamesSelect, Plan.averagesSelect, joined,
    Query.rename_referencedFields, projection]
  rfl

end Renamed

end Roster

theorem roster_variables {p : Program} {r : Roster} (entered : p.roster = .ok r) :
    r.entries.map Binding.name = p.variables := by
  rw [roster_ok entered, List.map_map]
  rfl

theorem Roster.isPlayer_of_not_mem {r : Roster} {text : String}
    (absent : text ∉ r.entries.map Binding.name) : r.isPlayer text = false := by
  by_contra player
  obtain ⟨b, entry, rfl, _⟩ := isPlayer_entry (by simpa using player)
  exact absent (List.mem_map_of_mem entry)

theorem Roster.renamed_sortedPlayers {r s : Roster}
    (renamed : s.entries = r.entries.map (Binding.rename newName)) :
    Names.sorted s.players = Names.sorted ((Names.sorted r.players).map newName) := by
  apply Names.sorted_congr
  intro name
  rw [renamed_players renamed]
  simp only [List.mem_map, Names.mem_sorted]

theorem Program.rename_parameters (p : Program) (q : Query) :
    (p.rename newName).declarations.filterMap Declaration.playerValue? ++
        (q.rename newName).filters.flatMap Expr.values =
      p.declarations.filterMap Declaration.playerValue? ++ q.filters.flatMap Expr.values := by
  simp only [rename, Query.rename, List.filterMap_map, List.flatMap_map, Function.comp_def,
    Declaration.rename_playerValue?, Expr.rename_values]

structure Plan.Renamed (newName : String → String) (plan other : Plan) : Prop where
  parameters : other.parameters = plan.parameters
  shape : other.shape = plan.shape
  referencedFields : other.referencedFields = plan.referencedFields
  players : other.players = Names.sorted (plan.players.map newName)

/-- A program whose variables are renamed is entered and planned like the program itself.
    The plan differs in the names of the players and in the text only, and if no variable
    needs a join of its own then in the text neither. -/
theorem renaming_keeps_plan {p : Program} {r : Roster} {limit : Option UInt64} {plan : Plan}
    (entered : p.roster = .ok r) (planned : Plan.ofQuery? r limit p.query = .ok plan)
    (renames : p.Renames newName) :
    ∃ s other, (p.rename newName).roster = .ok s ∧
      Plan.ofQuery? s limit (p.rename newName).query = .ok other ∧ plan.Renamed newName other ∧
      (r.players.length ≤ 1 → r.hasRelated = false → other.sql = plan.sql) := by
  obtain ⟨s, enteredNew, renamed⟩ := p.rename_roster entered renames.injective
  have players := Roster.renamed_sortedPlayers renamed
  cases asked : p.query with
  | none =>
    rw [asked] at planned
    cases planned
    have none : (p.rename newName).query = none := by simp [Program.rename, asked]
    rw [none]
    exact ⟨s, .idle s, enteredNew, rfl, ⟨rfl, rfl, rfl, players⟩, fun _ _ => rfl⟩
  | some q =>
    rw [asked] at planned
    have clear : ∀ e ∈ q.filters, ∀ text ∈ e.bareNames,
        r.isPlayer text = false ∧ s.isPlayer text = false := by
      intro e among text member
      obtain ⟨before, after⟩ :=
        renames.clear q asked text (List.mem_flatMap.mpr ⟨e, among, member⟩)
      have namesNew : s.entries.map Binding.name = p.variables.map newName := by
        rw [renamed, ← roster_variables entered, List.map_map, List.map_map]
        rfl
      exact ⟨Roster.isPlayer_of_not_mem (by rwa [roster_variables entered]),
        Roster.isPlayer_of_not_mem (by rwa [namesNew])⟩
    obtain ⟨scope, own, read, same⟩ := ofQuery_ok planned
    obtain ⟨ownNew, readNew, sameOwn⟩ := Roster.renamed_terms renamed read clear
    have plannedNew := ofQuery_of_terms (q := q.rename newName) scope readNew limit
    have some : (p.rename newName).query = some (q.rename newName) := by
      simp [Program.rename, asked]
    rw [some]
    refine ⟨s, _, enteredNew, plannedNew, ⟨?_, ?_, ?_, ?_⟩, ?_⟩
    · rw [query_parameters enteredNew plannedNew, query_parameters entered planned]
      exact p.rename_parameters q
    · rw [same]
      rfl
    · rw [same]
      exact q.rename_referencedFields
    · rw [same]
      exact players
    · intro few unrelated
      have shared : r.aliasing = .shared := by
        have notMany : ¬ 1 < r.players.length := by omega
        simp [Roster.aliasing, notMany, unrelated]
      rw [same, sameOwn shared, Roster.renamed_bindingConditions renamed shared,
        Plan.ofSelect, Roster.renamed_select renamed shared]
      rfl

def scorerAndTeam : Program :=
  ⟨[⟨.player, "p", some (.literal (.string "Curry") .string)⟩, ⟨.team, "t", none⟩],
    some ⟨.games, [.compare (.field "p" "points") .gt (.literal (.int 30) .number),
      .compare (.field "t" "score") .lt (.literal (.int 100) .number),
      .compare (.name "season") .eq (.literal (.string "2023-24") .string)], none, none, none⟩⟩

def swapNames (name : String) : String :=
  if name = "p" then "t" else if name = "t" then "p" else name

theorem scorerAndTeam_swapped : scorerAndTeam.Renames swapNames ∧
    ∃ r plan s other, scorerAndTeam.roster = .ok r ∧
      Plan.ofQuery? r none scorerAndTeam.query = .ok plan ∧ plan.players = ["p"] ∧
      (scorerAndTeam.rename swapNames).roster = .ok s ∧
      Plan.ofQuery? s none (scorerAndTeam.rename swapNames).query = .ok other ∧
      other.players = ["t"] ∧ other.parameters = plan.parameters ∧ other.sql = plan.sql := by
  have renames : scorerAndTeam.Renames swapNames := by
    constructor
    · intro a first b second same
      have names : scorerAndTeam.variables = ["p", "t"] := rfl
      simp only [names, Set.mem_ofPred_eq, List.mem_cons, List.not_mem_nil, or_false] at first second
      rcases first with rfl | rfl <;> rcases second with rfl | rfl <;> simp_all [swapNames]
    · intro q asked
      cases asked
      decide
  have views : (scorerAndTeam.roster.bind fun r =>
      (Plan.ofQuery? r none scorerAndTeam.query).map fun plan =>
        (r.players.length, r.hasRelated, plan.players)) = .ok (1, false, ["p"]) := by
    decide +kernel
  cases entered : scorerAndTeam.roster with
  | error fault =>
    rw [entered] at views
    cases views
  | ok r =>
    cases planned : Plan.ofQuery? r none scorerAndTeam.query with
    | error fault => simp [entered, planned, Except.bind, Except.map] at views
    | ok plan =>
      simp only [entered, planned, Except.bind, Except.map, Except.ok.injEq, Prod.mk.injEq] at views
      obtain ⟨few, unrelated, players⟩ := views
      obtain ⟨s, other, enteredNew, plannedNew, same, text⟩ :=
        renaming_keeps_plan entered planned renames
      have playersNew : other.players = ["t"] := by
        rw [same.players, players]
        decide
      exact ⟨renames, r, plan, s, other, rfl, planned, players, enteredNew, plannedNew, playersNew,
        same.parameters, text (Nat.le_of_eq few) unrelated⟩

end BoxScore
