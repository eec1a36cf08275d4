import BoxScore.Plan.Draft
import BoxScore.Proofs.JoinedTables

/- What is read of an opponent. A variable that is tied to a player as its opponent has
   statistics of its own, whether it is declared as an opponent or as a player. But the
   columns of an opponent are looked up in the list for the away side of a game, so that
   fields with another name than their column are not found in the statistics, and numbers
   among them are compared as text. -/
namespace BoxScore

open Sql

namespace Schema

theorem column_eq_self {kind : Entity} (renamed : List String)
    (listed : ∀ entry ∈ columns kind, entry.1 ∈ renamed ∨ entry.2 = entry.1) {field : String}
    (other : field ∉ renamed) : column kind field = field := by
  unfold column
  cases found : (columns kind).lookup field with
  | none => rfl
  | some name =>
    obtain ⟨before, later, split, _⟩ := List.lookup_eq_some_iff.mp found
    have entry : (field, name) ∈ columns kind := by simp [split]
    rcases listed _ entry with named | same
    · exact absurd named other
    · exact same

def shortFields : List String :=
  ["rebounds", "minutes", "game", "opponent", "fg", "fga", "fgpct", "threept", "threepta",
   "threeptpct", "ft", "fta", "ftpct", "oreb", "dreb", "to", "pf", "plusminus"]

def shortStats : List String :=
  ["rebounds", "minutes", "fg", "fga", "threept", "threepta", "ft", "fta", "oreb", "dreb", "to",
   "pf", "plusminus"]

def awayFields : List String := ["city", "score"]

def opposedColumn (field : String) : String :=
  if field = "team" then "playerteamName" else column .opponent field

theorem player_column_eq_self {field : String} (long : field ∉ shortFields)
    (unnamed : field ≠ "name") (other : field ≠ "team") : column .player field = field :=
  column_eq_self ("name" :: "team" :: shortFields) (by decide) (by simp [unnamed, other, long])

theorem opponent_column_eq_self {field : String} (near : field ∉ awayFields)
    (unnamed : field ≠ "name") : column .opponent field = field :=
  column_eq_self ("name" :: awayFields) (by decide) (by simp [unnamed, near])

theorem opposedColumn_eq_iff {field : String} (unnamed : field ≠ "name") :
    opposedColumn field = column .player field ↔ field ∉ shortFields ∧ field ∉ awayFields := by
  constructor
  · intro same
    have apart : ∀ f ∈ shortFields ++ awayFields, opposedColumn f ≠ column .player f := by decide
    rw [← not_or, ← List.mem_append]
    intro listed
    exact apart field listed same
  · rintro ⟨long, near⟩
    by_cases team : field = "team"
    · rw [team]
      decide
    · rw [opposedColumn, if_neg team, opponent_column_eq_self near unnamed,
        player_column_eq_self long unnamed team]

theorem isStatColumn_eq_iff {field : String} (unnamed : field ≠ "name") :
    isStatColumn (column .opponent field) = isStatColumn (column .player field) ↔
      field ∉ shortStats := by
  constructor
  · intro same listed
    have apart : ∀ f ∈ shortStats,
        isStatColumn (column .opponent f) ≠ isStatColumn (column .player f) := by decide
    exact apart field listed same
  · intro long
    by_cases known : field ∈ "team" :: shortFields ++ awayFields
    · have equal : ∀ f ∈ "team" :: shortFields ++ awayFields, f ∈ shortStats ∨
          isStatColumn (column .opponent f) = isStatColumn (column .player f) := by decide
      exact (equal field known).resolve_left long
    · simp only [List.mem_append, List.mem_cons, not_or] at known
      obtain ⟨⟨other, long⟩, near⟩ := known
      rw [opponent_column_eq_self near unnamed, player_column_eq_self long unnamed other]

end Schema

namespace Roster

/-- A field is read from a column of the variable's own statistics, and a comparison of the
    field casts that column to a number or does not. -/
structure ReadsColumn (r : Roster) (owner field column : String) (cast : Bool) : Prop where
  read : r.fieldTerm owner field = .ok (.column (statsAlias owner) column : Term Value)
  compared : ∀ op right t, r.term right = .ok t →
    r.term (.compare (.field owner field) op right) = .ok (.compare
      (if cast then .cast (.column (statsAlias owner) column) .real
        else .column (statsAlias owner) column) op t)

theorem term_compare_field {r : Roster} {owner field : String} {left right : Term Value}
    (read : r.fieldTerm owner field = .ok left) (unplayed : field ≠ "played") (op : Comparison)
    {e : Expr} (also : r.term e = .ok right) :
    r.term (.compare (.field owner field) op e) = .ok (.compare
      (if r.readsStat (.field owner field) then .cast left .real else left) op right) := by
  have plain : ¬ r.Special (.field owner field) op e := by
    intro special
    cases special with
    | played => exact unplayed rfl
  have readLeft : r.term (.field owner field) = .ok left := by rw [term, read]
  exact term_compare_plain plain readLeft also

variable {r : Roster} {o p field : String}

theorem opponent_readsColumn (found : r.find? o = some ⟨o, .opponent, .related .opponent p⟩)
    (unnamed : field ≠ "name") (unplayed : field ≠ "played") :
    r.ReadsColumn o field (Schema.opposedColumn field)
      (Schema.isStatColumn (Schema.column .opponent field)) := by
  have read : r.fieldTerm o field =
      .ok (.column (statsAlias o) (Schema.opposedColumn field) : Term Value) := by
    by_cases team : field = "team"
    · simp [fieldTerm, lookup, found, Binding.isRelatedBy, Binding.relation?, team,
        Schema.opposedColumn]
    · simp [fieldTerm, lookup, found, Binding.isRelatedBy, Binding.relation?, team, unnamed,
        Schema.opposedColumn]
  have stat : r.readsStat (.field o field) =
      Schema.isStatColumn (Schema.column .opponent field) := by
    simp [readsStat, found]
  refine ⟨read, fun op right t also => ?_⟩
  rw [term_compare_field read unplayed op also, stat]

theorem player_readsColumn (found : r.find? o = some ⟨o, .player, .related .opponent p⟩)
    (unnamed : field ≠ "name") (unplayed : field ≠ "played") :
    r.ReadsColumn o field (Schema.column .player field)
      (Schema.isStatColumn (Schema.column .player field)) := by
  have own : r.aliasing = .perVariable :=
    perVariable_of_tied ((find?_eq_some_iff r _ _).mp found).1 rfl
  have read : r.fieldTerm o field =
      .ok (.column (statsAlias o) (Schema.column .player field) : Term Value) := by
    simp [fieldTerm, lookup, found, own, unnamed, unplayed]
  have stat : r.readsStat (.field o field) =
      Schema.isStatColumn (Schema.column .player field) := by
    simp [readsStat, found, unplayed]
  refine ⟨read, fun op right t also => ?_⟩
  rw [term_compare_field read unplayed op also, stat]

end Roster

/-- A variable that is declared once as the opponent of a player and once as a player that
    is the opponent. A field is read from the same column exactly if its name is the name
    of a column, and is compared as a number for both or for neither exactly if it is not
    short for a number. -/
theorem opponent_reads_like_player_iff {first second : Program} {r s : Roster}
    {o p field : String} (entered : first.roster = .ok r) (entered' : second.roster = .ok s)
    (opponent : ⟨.opponent, o, some (.field p "opponent")⟩ ∈ first.declarations)
    (player : ⟨.player, o, some (.field p "opponent")⟩ ∈ second.declarations)
    (unnamed : field ≠ "name") (unplayed : field ≠ "played") :
    ∃ column other cast also, r.ReadsColumn o field column cast ∧
      s.ReadsColumn o field other also ∧
      (column = other ↔ field ∉ Schema.shortFields ∧ field ∉ Schema.awayFields) ∧
      (cast = also ↔ field ∉ Schema.shortStats) := by
  have asOpponent := Roster.opponent_readsColumn (Roster.find?_declared entered opponent)
    unnamed unplayed
  have asPlayer := Roster.player_readsColumn (Roster.find?_declared entered' player)
    unnamed unplayed
  refine ⟨_, _, _, _, asOpponent, asPlayer, ?_, ?_⟩
  · exact Schema.opposedColumn_eq_iff unnamed
  · exact Schema.isStatColumn_eq_iff unnamed

def opposedTo (kind : Entity) : Program where
  declarations := [⟨.player, "p", none⟩, ⟨kind, "o", some (.field "p" "opponent")⟩]
  query := some ⟨.games, [.compare (.field "o" "rebounds") .gt (.literal (.int 10) .number)],
    none, none, none⟩

theorem team_of_opponent_alike : ∃ r s, (opposedTo .opponent).roster = .ok r ∧
    (opposedTo .player).roster = .ok s ∧
    ∃ column cast, r.ReadsColumn "o" "team" column cast ∧ s.ReadsColumn "o" "team" column cast := by
  have entered : (opposedTo .opponent).roster = .ok (.ofBindings [⟨"p", .player, .unbound⟩,
      ⟨"o", .opponent, .related .opponent "p"⟩]) := by decide
  have entered' : (opposedTo .player).roster = .ok (.ofBindings [⟨"p", .player, .unbound⟩,
      ⟨"o", .player, .related .opponent "p"⟩]) := by decide
  obtain ⟨column, other, cast, also, first, second, sameColumn, sameCast⟩ :=
    opponent_reads_like_player_iff entered entered' (o := "o") (p := "p") (by decide) (by decide)
      (by decide : "team" ≠ "name") (by decide)
  obtain rfl := sameColumn.mpr (by decide)
  obtain rfl := sameCast.mpr (by decide)
  exact ⟨_, _, entered, entered', column, cast, first, second⟩

/-- The rebounds of an opponent are read from a column that the statistics do not have, and
    are compared as text. -/
theorem rebounds_of_opponent_apart :
    Program.parse "Player p Opponent o = p.opponent get games where o.rebounds > 10" =
      .ok (opposedTo .opponent) ∧
    Program.parse "Player p Player o = p.opponent get games where o.rebounds > 10" =
      .ok (opposedTo .player) ∧
    ∃ r s, (opposedTo .opponent).roster = .ok r ∧ (opposedTo .player).roster = .ok s ∧
      ∀ e ∈ (opposedTo .opponent).query.toList.flatMap Query.filters,
        ((Draft.start r).expression e).map Prod.fst = .ok "o_stats.rebounds > ?1" ∧
        ((Draft.start s).expression e).map Prod.fst =
          .ok "CAST(o_stats.reboundsTotal AS REAL) > ?1" := by
  refine ⟨by decide +kernel, by decide +kernel, .ofBindings [⟨"p", .player, .unbound⟩,
    ⟨"o", .opponent, .related .opponent "p"⟩], .ofBindings [⟨"p", .player, .unbound⟩,
    ⟨"o", .player, .related .opponent "p"⟩], by decide, by decide, ?_⟩
  decide +kernel

end BoxScore
