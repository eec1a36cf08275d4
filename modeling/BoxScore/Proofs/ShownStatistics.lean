import BoxScore.Proofs.FirstOffence
import BoxScore.Proofs.JoinedTables

/- Which statistics a query about games shows when it selects none itself. Besides the
   headline of the first player there are the curated statistics that the query refers to.
   A reference counts by its spelling: a condition on a statistic shows it only if the
   query also has the one spelling under which the statistic is curated. -/
namespace BoxScore

open Sql

def Sql.Term.columns {α : Type} : Term α → List (String × String)
  | .column table name => [(table, name)]
  | .fullName table => [(table, "firstName"), (table, "lastName")]
  | .cast t _ | .aggregate _ t | .group t => t.columns
  | .distance l r | .compare l _ r | .both l r | .either l r => l.columns ++ r.columns
  | .word _ | .parameter _ | .countRows | .always => []

def Sql.Select.Shows {α : Type} (s : Select α) (table column : String) : Prop :=
  ∃ i ∈ s.projection, (table, column) ∈ i.term.columns

instance {α : Type} (s : Select α) (table column : String) : Decidable (s.Shows table column) :=
  inferInstanceAs (Decidable (∃ i ∈ s.projection, (table, column) ∈ i.term.columns))

theorem Expr.mem_fields {e : Expr} {owner field : String} (part : .field owner field ∈ e.parts) :
    field ∈ e.fields := by
  induction e with
  | compare left op right leftIH rightIH =>
    rw [parts, List.mem_cons, List.mem_append] at part
    rw [fields, List.mem_append]
    rcases part with whole | inLeft | inRight
    · cases whole
    · exact Or.inl (leftIH inLeft)
    · exact Or.inr (rightIH inRight)
  | field other name =>
    cases List.mem_singleton.mp part
    exact List.mem_singleton.mpr rfl
  | literal value kind => cases List.mem_singleton.mp part
  | name text => cases List.mem_singleton.mp part
  | aggregate f argument ih =>
    rw [parts, List.mem_cons] at part
    rcases part with whole | inside
    · cases whole
    · exact ih inside

theorem Query.mem_referencedFields {q : Query} {owner field : String}
    (part : .field owner field ∈ q.parts) : field ∈ q.referencedFields := by
  obtain ⟨e, among, inside⟩ := List.mem_flatMap.mp part
  rw [referencedFields, Names.mem_sorted, List.mem_append]
  exact Or.inl (List.mem_flatMap.mpr ⟨e, among, Expr.mem_fields inside⟩)

namespace Schema

def curatedColumns : List String := curatedFields.map (column .player)

theorem curated_eq_of_column {stat other : String} (curated : stat ∈ curatedFields)
    (also : other ∈ curatedFields) (same : column .player stat = column .player other) :
    stat = other := by
  have distinct : curatedColumns.Nodup := by decide
  exact List.inj_on_of_nodup_map distinct curated also same

end Schema

namespace Projection

theorem headline_uncurated (table : String) : ∀ i ∈ gameDate :: headline table,
    ∀ entry ∈ i.term.columns, entry.2 ∉ Schema.curatedColumns := by
  have columns : ((gameDate :: headline table).flatMap fun i => i.term.columns).map Prod.snd =
      ["gameDate", "firstName", "lastName", "playerteamName", "opponentteamName", "win",
       "homeScore", "awayScore", "points", "reboundsTotal", "assists"] := rfl
  have apart : ∀ name ∈ ["gameDate", "firstName", "lastName", "playerteamName",
      "opponentteamName", "win", "homeScore", "awayScore", "points", "reboundsTotal", "assists"],
      name ∉ Schema.curatedColumns := by decide
  intro i among entry read
  apply apart
  rw [← columns]
  exact List.mem_map_of_mem (List.mem_flatMap.mpr ⟨i, among, read⟩)

theorem mem_curated {table : String} {referenced : List String} (referring : referenced ≠ [])
    (i : Item) : i ∈ curated table referenced ↔ ∃ stat ∈ Schema.curatedFields,
      stat ∈ referenced ∧ i = ⟨.column table (Schema.column .player stat), some stat⟩ := by
  have filled : referenced.isEmpty = false := by simpa using referring
  rw [curated, List.mem_map]
  constructor
  · rintro ⟨stat, kept, rfl⟩
    rw [List.mem_filter, filled, Bool.false_or, List.contains_iff_mem] at kept
    exact ⟨stat, kept.1, kept.2, rfl⟩
  · rintro ⟨stat, known, named, rfl⟩
    refine ⟨stat, ?_, rfl⟩
    rw [List.mem_filter, filled, Bool.false_or, List.contains_iff_mem]
    exact ⟨known, named⟩

theorem standard_shows_iff {r : Roster} {first : String} {others : List String}
    (players : r.players = first :: others) {referenced : List String}
    (referring : referenced ≠ []) {stat : String} (known : stat ∈ Schema.curatedFields) :
    (∃ i ∈ standard r referenced,
      (r.aliasing.stats first, Schema.column .player stat) ∈ i.term.columns) ↔
        stat ∈ referenced := by
  have shown : standard r referenced = (gameDate :: headline (r.aliasing.stats first)) ++
      curated (r.aliasing.stats first) referenced := by
    rw [standard, players]
  rw [shown]
  constructor
  · rintro ⟨i, among, read⟩
    rcases List.mem_append.mp among with headed | chosen
    · have column : Schema.column .player stat ∈ Schema.curatedColumns :=
        List.mem_map_of_mem known
      exact absurd column (headline_uncurated _ i headed _ read)
    · obtain ⟨other, also, named, rfl⟩ := (mem_curated referring i).mp chosen
      have same : Schema.column .player stat = Schema.column .player other :=
        (Prod.mk.inj (List.mem_singleton.mp read)).2
      rw [Schema.curated_eq_of_column known also same]
      exact named
  · intro named
    refine ⟨⟨.column (r.aliasing.stats first) (Schema.column .player stat), some stat⟩, ?_,
      List.mem_singleton.mpr rfl⟩
    apply List.mem_append_right
    exact (mem_curated referring _).mpr ⟨stat, known, named, rfl⟩

end Projection

theorem roster_players {p : Program} {r : Roster} (entered : p.roster = .ok r) :
    r.players = (p.declarations.filter (·.kind == .player)).map Declaration.name := by
  rw [Roster.players, roster_ok entered, List.filter_map, List.map_map]
  rfl

theorem first_player {p : Program} {r : Roster} (entered : p.roster = .ok r) {d : Declaration}
    (first : p.declarations.find? (·.kind == .player) = some d) :
    ∃ others, r.players = d.name :: others := by
  rw [← List.head?_filter] at first
  obtain ⟨rest, split⟩ := List.head?_eq_some_iff.mp first
  exact ⟨rest.map Declaration.name, by rw [roster_players entered, split, List.map_cons]⟩

/-- The statement of a query about games that selects nothing itself, in a program whose
    first player is known. A condition on a field of this player reads the column of a
    curated statistic. The statement shows this column of the player exactly if the query
    refers to some field by the name under which the statistic is curated. -/
theorem filtered_statistic_shown_iff {settings : Settings} {source : String} {plan : Plan}
    (compiled : compile settings source = .ok plan) {p : Program} {q : Query} {d : Declaration}
    (parsed : Program.parse source = .ok p) (asked : p.query = some q) (scope : q.scope = .games)
    (unselected : q.selection = none)
    (first : p.declarations.find? (·.kind == .player) = some d) :
    ∃ r filters, p.roster = .ok r ∧ r.conditions q.filters = .ok filters ∧
      plan = Plan.ofSelect r q (Plan.gamesSelect r settings.defaultLimit q filters) ∧
      ∀ field, .field d.name field ∈ q.parts → ∀ stat ∈ Schema.curatedFields,
        Schema.column .player field = Schema.column .player stat →
        ((Plan.gamesSelect r settings.defaultLimit q filters).Shows
            (r.aliasing.stats d.name) (Schema.column .player field) ↔
          stat ∈ q.referencedFields) := by
  obtain ⟨program, r, again, entered, planned⟩ := compile_ok compiled
  cases parsed.symm.trans again
  rw [asked, Plan.ofQuery?, Plan.ofQuery, scope] at planned
  obtain ⟨filters, read, finish⟩ := Reading.bind_eq_ok planned
  cases finish
  refine ⟨r, filters, entered, read, rfl, ?_⟩
  intro field part stat known same
  obtain ⟨others, players⟩ := first_player entered first
  have referring : q.referencedFields ≠ [] :=
    List.ne_nil_of_mem (Query.mem_referencedFields part)
  rw [same, ← Projection.standard_shows_iff players referring known]
  simp only [Select.Shows, Plan.gamesSelect, unselected]

def madeAndSorted : Program where
  declarations := [⟨.team, "t", none⟩, ⟨.player, "p", none⟩]
  query := some ⟨.games, [.compare (.field "p" "fg") .gt (.literal (.int 5) .number)], none,
    some ⟨"fieldGoalsMade", false⟩, none⟩

theorem madeAndSorted_shown : ∃ plan r filters q,
    compile .standard "Team t Player p get games where p.fg > 5 most fieldGoalsMade" = .ok plan ∧
      madeAndSorted.roster = .ok r ∧ madeAndSorted.query = some q ∧
      plan = Plan.ofSelect r q (Plan.gamesSelect r none q filters) ∧
      (Plan.gamesSelect r none q filters).Shows "player_statistics" "fieldGoalsMade" := by
  have read : Program.parse "Team t Player p get games where p.fg > 5 most fieldGoalsMade" =
        .ok madeAndSorted ∧
      (compile .standard "Team t Player p get games where p.fg > 5 most fieldGoalsMade").toBool := by
    decide +kernel
  have entered : madeAndSorted.roster =
      .ok (.ofBindings [⟨"t", .team, .unbound⟩, ⟨"p", .player, .unbound⟩]) := by decide
  cases compiled :
      compile .standard "Team t Player p get games where p.fg > 5 most fieldGoalsMade" with
  | error fault =>
    rw [compiled] at read
    cases read.2
  | ok plan =>
    obtain ⟨r, filters, again, _, same, shown⟩ :=
      filtered_statistic_shown_iff compiled read.1 rfl rfl rfl rfl
    cases entered.symm.trans again
    exact ⟨plan, _, filters, _, rfl, entered, rfl, same,
      (shown "fg" (by decide) "fieldGoalsMade" (by decide) (by decide)).mpr (by decide)⟩

def madeFieldGoals : Program where
  declarations := [⟨.player, "p", none⟩]
  query := some ⟨.games, [.compare (.field "p" "fg") .gt (.literal (.int 5) .number)], none, none,
    none⟩

/-- A condition on the field goals made, written short: its column is that of a curated
    statistic, and is not shown. -/
theorem madeFieldGoals_not_shown :
    Program.parse "Player p get games where p.fg > 5" = .ok madeFieldGoals ∧
    ∃ r q filters, madeFieldGoals.roster = .ok r ∧ madeFieldGoals.query = some q ∧
      compile .standard "Player p get games where p.fg > 5" =
        .ok (Plan.ofSelect r q (Plan.gamesSelect r none q filters)) ∧
      Schema.column .player "fg" = Schema.column .player "fieldGoalsMade" ∧
      "fieldGoalsMade" ∈ Schema.curatedFields ∧
      ¬ (Plan.gamesSelect r none q filters).Shows (r.aliasing.stats "p")
        (Schema.column .player "fg") := by
  refine ⟨by decide +kernel, .ofBindings [⟨"p", .player, .unbound⟩],
    ⟨.games, [.compare (.field "p" "fg") .gt (.literal (.int 5) .number)], none, none, none⟩,
    [.compare (.cast (.column "player_statistics" "fieldGoalsMade") .real) .gt
      (.parameter (.int 5))], by decide, rfl, ?_⟩
  decide +kernel

end BoxScore
