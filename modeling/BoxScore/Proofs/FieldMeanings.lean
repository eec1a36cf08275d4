import BoxScore.Proofs.OpponentColumns
import BoxScore.Proofs.Renaming

/- What one field means in the conditions of a query, in its selection and in its order.
   Where all variables share the statistics, each of the three reads one column of them.
   Conditions look the column up in a list; selections and orders know a few fields of that
   list and take any other field for the column itself. -/
namespace BoxScore

open Sql

namespace Schema

def abbreviations : List String :=
  ["fg", "fga", "fgpct", "threept", "threepta", "threeptpct", "ft", "fta", "ftpct", "oreb", "dreb",
   "to", "pf", "plusminus"]

def unsorted : List String := "game" :: "team" :: abbreviations

def unselected : List String := "minutes" :: unsorted

def selectedColumn (field : String) : String :=
  if field = "rebounds" then "reboundsTotal" else field

def sortedColumn (field : String) : String :=
  if field = "rebounds" then "reboundsTotal"
  else if field = "minutes" then "numMinutes"
  else field

theorem selectItem_term {field : String} (unnamed : field ≠ "name") (undated : field ≠ "date")
    (other : field ≠ "opponent") :
    (selectItem field).term = .column statisticsTable (selectedColumn field) := by
  unfold selectItem
  split
  all_goals simp_all [selectedColumn]

theorem sortTerm_cast {field : String} (unnamed : field ≠ "name") :
    ∃ type, sortTerm field = .cast (.column statisticsTable (sortedColumn field)) type := by
  unfold sortTerm
  split
  all_goals simp_all [sortedColumn]

theorem column_eq_iff {meaning : String → String} {lost : List String}
    (listed : ∀ f ∈ "team" :: shortFields, f ≠ "opponent" →
      (meaning f = column .player f ↔ f ∉ lost))
    (plain : ∀ f ∉ "team" :: shortFields, meaning f = f) (few : lost ⊆ "team" :: shortFields)
    {field : String} (unnamed : field ≠ "name") (other : field ≠ "opponent") :
    meaning field = column .player field ↔ field ∉ lost := by
  by_cases known : field ∈ "team" :: shortFields
  · exact listed field known other
  · have kept : field ∉ lost := fun absent => known (few absent)
    rw [plain field known]
    simp only [List.mem_cons, not_or] at known
    rw [player_column_eq_self known.2 unnamed known.1]
    exact iff_of_true rfl kept

theorem selectedColumn_eq_iff {field : String} (unnamed : field ≠ "name")
    (other : field ≠ "opponent") :
    selectedColumn field = column .player field ↔ field ∉ unselected := by
  refine column_eq_iff (by decide) ?_ (by decide) unnamed other
  intro f unknown
  have long : f ≠ "rebounds" := by
    rintro rfl
    exact unknown (by decide)
  rw [selectedColumn, if_neg long]

theorem sortedColumn_eq_iff {field : String} (unnamed : field ≠ "name")
    (other : field ≠ "opponent") :
    sortedColumn field = column .player field ↔ field ∉ unsorted := by
  refine column_eq_iff (by decide) ?_ (by decide) unnamed other
  intro f unknown
  have long : f ≠ "rebounds" ∧ f ≠ "minutes" := by
    constructor
    · rintro rfl
      exact unknown (by decide)
    · rintro rfl
      exact unknown (by decide)
  rw [sortedColumn, if_neg long.1, if_neg long.2]

end Schema

theorem Roster.player_column_shared {r : Roster} {b : Binding} (entry : b ∈ r.entries)
    (player : b.kind = .player) (shared : r.aliasing = .shared) {field : String}
    (unnamed : field ≠ "name") (unplayed : field ≠ "played") :
    r.fieldTerm b.name field =
      .ok (.column Schema.statisticsTable (Schema.column .player field) : Term Value) := by
  have found := (r.find?_eq_some_iff b.name b).mpr ⟨entry, rfl⟩
  rw [fieldTerm_shared shared found, player, sharedField, if_neg unplayed, if_neg unnamed]

/-- A field of a player who shares the statistics, in a condition, in a selection and in an
    order. Each reads one column of the statistics. That of the selection is that of the
    condition but for the fields in `unselected`, and that of the order but for those in
    `unsorted`. -/
theorem field_meanings_agree_iff {r : Roster} {b : Binding} (entry : b ∈ r.entries)
    (player : b.kind = .player) (shared : r.aliasing = .shared) {field : String}
    (apart : field ∉ ["name", "date", "opponent", "played"]) :
    ∃ column shown sorted type,
      r.fieldTerm b.name field = .ok (.column Schema.statisticsTable column : Term Value) ∧
      (Schema.selectItem field).term = .column Schema.statisticsTable shown ∧
      Schema.sortTerm field = .cast (.column Schema.statisticsTable sorted) type ∧
      (shown = column ↔ field ∉ Schema.unselected) ∧
      (sorted = column ↔ field ∉ Schema.unsorted) := by
  simp only [List.mem_cons, List.not_mem_nil, or_false, not_or] at apart
  obtain ⟨unnamed, undated, other, unplayed⟩ := apart
  have read := Roster.player_column_shared entry player shared unnamed unplayed
  have selected := Schema.selectItem_term unnamed undated other
  obtain ⟨type, ordered⟩ := Schema.sortTerm_cast unnamed
  refine ⟨_, _, _, type, read, selected, ordered, ?_, ?_⟩
  · exact Schema.selectedColumn_eq_iff unnamed other
  · exact Schema.sortedColumn_eq_iff unnamed other

theorem rebounds_mean_one_column : ∃ r column type,
    Program.roster ⟨[⟨.player, "p", none⟩], none⟩ = .ok r ∧
    r.fieldTerm "p" "rebounds" = .ok (.column "player_statistics" column : Term Value) ∧
    (Schema.selectItem "rebounds").term = .column "player_statistics" column ∧
    Schema.sortTerm "rebounds" = .cast (.column "player_statistics" column) type := by
  have entered : Program.roster ⟨[⟨.player, "p", none⟩], none⟩ =
      .ok (.ofBindings [⟨"p", .player, .unbound⟩]) := by decide
  obtain ⟨column, shown, sorted, type, read, selected, ordered, sameShown, sameSorted⟩ :=
    field_meanings_agree_iff (r := .ofBindings [⟨"p", .player, .unbound⟩])
      (List.mem_singleton.mpr rfl) rfl (by decide)
      (by decide : "rebounds" ∉ ["name", "date", "opponent", "played"])
  obtain rfl := sameShown.mpr (by decide)
  obtain rfl := sameSorted.mpr (by decide)
  exact ⟨_, _, type, entered, read, selected, ordered⟩

/-- One field in all three places: the selection alone reads a column that the statistics do
    not have. -/
theorem selected_minutes_apart :
    compile .standard
        "Player p get games where p.minutes > 30 select minutes order by most minutes" =
      .ok ⟨"SELECT player_statistics.minutes FROM games" ++
          " LEFT JOIN player_statistics ON games.gameId = player_statistics.gameId" ++
          " WHERE CAST(player_statistics.numMinutes AS REAL) > ?1" ++
          " ORDER BY CAST(player_statistics.numMinutes AS REAL) DESC",
        [.int 30], .games, ["minutes"], ["p"]⟩ := by
  decide +kernel

end BoxScore
