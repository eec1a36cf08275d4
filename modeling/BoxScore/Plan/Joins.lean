import BoxScore.Plan.Aliasing

/- The tables that a statement joins to the games. -/
namespace BoxScore.Roster

open Sql

def statsJoin (name : String) : Join :=
  ⟨Schema.statisticsTable, some (statsAlias name),
    .compare (.column Schema.gamesTable "gameId") .eq (.column (statsAlias name) "gameId")⟩

def teamJoin (name : String) : Join :=
  ⟨Schema.teamsTable, some (teamAlias name),
    .either (.compare (.column Schema.gamesTable "hometeamId") .eq
        (.column (teamAlias name) "teamId"))
      (.compare (.column Schema.gamesTable "awayteamId") .eq (.column (teamAlias name) "teamId"))⟩

def hasKind (r : Roster) (kind : Entity) : Bool := r.entries.any (·.kind == kind)

def sharedJoins (r : Roster) : List Join :=
  ([.player, .team, .opponent].filter r.hasKind).map Schema.sharedJoin

def readsStats (b : Binding) : Bool := b.kind == .player || b.kind == .opponent

/-- A team that is tied to a player is not joined. -/
def joinsTeam (b : Binding) : Bool :=
  b.kind == .team && !b.isRelatedBy .team && !b.isRelatedBy .opponent

def variableJoins (r : Roster) : List Join :=
  (r.entries.filter readsStats).map (fun b => statsJoin b.name) ++
    (r.entries.filter joinsTeam).map (fun b => teamJoin b.name)

def joins (r : Roster) : List Join :=
  match r.aliasing with
  | .shared => r.sharedJoins
  | .perVariable => r.variableJoins

end BoxScore.Roster
