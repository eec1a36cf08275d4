import BoxScore.Query
import BoxScore.Sql.Statement

/- The tables of the store and the names under which the query language knows their
   columns. The table `games` has a row for each game with a home and an away side,
   `player_statistics` a row for each player in each game, with numbers kept as text,
   and `team_histories` a row for each team. -/
namespace BoxScore.Schema

open Sql

def gamesTable : String := "games"
def statisticsTable : String := "player_statistics"
def teamsTable : String := "team_histories"

def playerColumns : List (String × String) :=
  [("name", "firstName || ' ' || lastName"), ("points", "points"),
   ("rebounds", "reboundsTotal"), ("assists", "assists"), ("steals", "steals"),
   ("blocks", "blocks"), ("turnovers", "turnovers"), ("minutes", "numMinutes"),
   ("game", "gameId"), ("team", "playerteamName"), ("opponent", "opponentteamName"),
   ("reboundsDefensive", "reboundsDefensive"), ("reboundsOffensive", "reboundsOffensive"),
   ("fieldGoalsAttempted", "fieldGoalsAttempted"), ("fieldGoalsMade", "fieldGoalsMade"),
   ("fieldGoalsPercentage", "fieldGoalsPercentage"),
   ("threePointersAttempted", "threePointersAttempted"),
   ("threePointersMade", "threePointersMade"),
   ("threePointersPercentage", "threePointersPercentage"),
   ("freeThrowsAttempted", "freeThrowsAttempted"), ("freeThrowsMade", "freeThrowsMade"),
   ("freeThrowsPercentage", "freeThrowsPercentage"), ("foulsPersonal", "foulsPersonal"),
   ("plusMinusPoints", "plusMinusPoints"), ("fg", "fieldGoalsMade"),
   ("fga", "fieldGoalsAttempted"), ("fgpct", "fieldGoalsPercentage"),
   ("threept", "threePointersMade"), ("threepta", "threePointersAttempted"),
   ("threeptpct", "threePointersPercentage"), ("ft", "freeThrowsMade"),
   ("fta", "freeThrowsAttempted"), ("ftpct", "freeThrowsPercentage"),
   ("oreb", "reboundsOffensive"), ("dreb", "reboundsDefensive"), ("to", "turnovers"),
   ("pf", "foulsPersonal"), ("plusminus", "plusMinusPoints")]

/-- Teams are read on the home side of a game. -/
def teamColumns : List (String × String) :=
  [("name", "hometeamName"), ("city", "hometeamCity"), ("score", "homeScore")]

/-- Opponents are read on the away side of a game. -/
def opponentColumns : List (String × String) :=
  [("name", "awayteamName"), ("city", "awayteamCity"), ("score", "awayScore")]

def columns : Entity → List (String × String)
  | .player => playerColumns
  | .team => teamColumns
  | .opponent => opponentColumns

/-- The column of a field. A field that is in no list names its own column. -/
def column (kind : Entity) (field : String) : String :=
  ((columns kind).lookup field).getD field

/-- Columns with numbers kept as text. -/
def statColumns : List String :=
  ["points", "assists", "reboundsTotal", "steals", "blocks", "turnovers",
   "threePointersMade", "threePointersAttempted", "fieldGoalsMade", "fieldGoalsAttempted",
   "freeThrowsMade", "freeThrowsAttempted", "foulsPersonal", "plusMinusPoints", "numMinutes",
   "reboundsDefensive", "reboundsOffensive"]

def isStatColumn (column : String) : Bool := statColumns.contains column

def curatedFields : List String :=
  ["steals", "blocks", "turnovers", "minutes", "reboundsDefensive", "reboundsOffensive",
   "fieldGoalsAttempted", "fieldGoalsMade", "fieldGoalsPercentage", "threePointersAttempted",
   "threePointersMade", "threePointersPercentage", "freeThrowsAttempted", "freeThrowsMade",
   "freeThrowsPercentage", "foulsPersonal", "plusMinusPoints"]

def averagedColumns : List (String × String) :=
  [("points", "avg_points"), ("reboundsTotal", "avg_rebounds"), ("assists", "avg_assists"),
   ("steals", "avg_steals"), ("blocks", "avg_blocks"), ("turnovers", "avg_turnovers"),
   ("threePointersMade", "avg_threePointersMade"), ("fieldGoalsMade", "avg_fieldGoalsMade"),
   ("freeThrowsMade", "avg_freeThrowsMade")]

def baseTable : Scope → String
  | .games | .averageGames => gamesTable
  | .seasons | .careers => statisticsTable
  | .named name => name

def selectItem (field : String) : Item :=
  match field with
  | "date" => ⟨.column gamesTable "gameDate", some "date"⟩
  | "opponent" => ⟨.column gamesTable "awayteamName", some "opponent"⟩
  | "points" => ⟨.column statisticsTable "points", some "points"⟩
  | "rebounds" => ⟨.column statisticsTable "reboundsTotal", some "rebounds"⟩
  | "assists" => ⟨.column statisticsTable "assists", some "assists"⟩
  | "name" => ⟨.fullName "players", some "name"⟩
  | _ => ⟨.column statisticsTable field, none⟩

/-- What rows are sorted by, always in the shared statistics. -/
def sortTerm (field : String) : Fixed :=
  match field with
  | "points" => .cast (.column statisticsTable "points") .integer
  | "rebounds" => .cast (.column statisticsTable "reboundsTotal") .integer
  | "assists" => .cast (.column statisticsTable "assists") .integer
  | "minutes" => .cast (.column statisticsTable "numMinutes") .real
  | "name" => .fullName statisticsTable
  | _ => .cast (.column statisticsTable field) .integer

def sharedJoin : Entity → Join
  | .player =>
    ⟨statisticsTable, none,
      .compare (.column gamesTable "gameId") .eq (.column statisticsTable "gameId")⟩
  | .team =>
    ⟨teamsTable, some "home_team",
      .compare (.column gamesTable "hometeamId") .eq (.column "home_team" "teamId")⟩
  | .opponent =>
    ⟨teamsTable, some "away_team",
      .compare (.column gamesTable "awayteamId") .eq (.column "away_team" "teamId")⟩

end BoxScore.Schema
