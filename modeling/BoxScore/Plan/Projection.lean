import BoxScore.Plan.Aliasing

/- What the rows of an answer show. -/
namespace BoxScore.Projection

open Sql Schema

def selected (s : Selection) : List Item := s.fields.map selectItem

def gameDate : Item := ⟨.column gamesTable "gameDate", some "game_date"⟩

def sides : List Item :=
  [⟨.column gamesTable "hometeamName", some "home_team"⟩,
   ⟨.column gamesTable "awayteamName", some "away_team"⟩,
   ⟨.column gamesTable "homeScore", some "home_score"⟩,
   ⟨.column gamesTable "awayScore", some "away_score"⟩]

def headline (table : String) : List Item :=
  [⟨.fullName table, some "player_name"⟩,
   ⟨.column table "playerteamName", some "team"⟩,
   ⟨.column table "opponentteamName", some "opponent"⟩,
   ⟨.column table "win", some "win"⟩,
   ⟨.distance (.cast (.column gamesTable "homeScore") .integer)
      (.cast (.column gamesTable "awayScore") .integer), some "margin"⟩,
   ⟨.column table "points", some "points"⟩,
   ⟨.column table "reboundsTotal", some "rebounds"⟩,
   ⟨.column table "assists", some "assists"⟩]

/-- All curated statistics if the query refers to no field, else those it refers to. -/
def curated (table : String) (referenced : List String) : List Item :=
  (curatedFields.filter fun field => referenced.isEmpty || referenced.contains field).map
    fun field => ⟨.column table (column .player field), some field⟩

def standard (r : Roster) (referenced : List String) : List Item :=
  match r.players with
  | [] => gameDate :: sides
  | first :: _ =>
    let table := r.aliasing.stats first
    gameDate :: headline table ++ curated table referenced

def averages : List Item :=
  averagedColumns.map (fun (column, name) =>
    ⟨.aggregate .avg (.cast (.column statisticsTable column) .real), some name⟩) ++
  [⟨.countRows, some "games_count"⟩]

end BoxScore.Projection
