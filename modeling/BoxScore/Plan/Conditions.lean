import BoxScore.Plan.Aliasing
import BoxScore.Plan.Names
import BoxScore.Season

/- The conditions of a statement: those that tie the variables down, the chain that
   puts all players into one game, and those of the query. -/
namespace BoxScore

open Sql

namespace Roster

variable {α : Type}

def fieldTerm (r : Roster) (owner field : String) : Except Fault (Term α) :=
  match r.lookup owner with
  | .error fault => .error fault
  | .ok b =>
    let column := Schema.column b.kind field
    match b.kind with
    | .player =>
      if field = "played" then .ok .always
      else match r.aliasing with
        | .perVariable =>
          if field = "name" then .ok (.fullName (owner ++ "_player"))
          else .ok (.column (statsAlias owner) column)
        | .shared =>
          if field = "name" then .ok (.fullName "players")
          else .ok (.column Schema.statisticsTable column)
    | .team =>
      match b.relation? with
      | some (.team, source) =>
        .ok (.column (statsAlias source)
          (if field = "name" then "playerteamName" else "playerteam" ++ field))
      | _ => .ok (.column Schema.gamesTable column)
    | .opponent =>
      if b.isRelatedBy .opponent then
        if field = "name" then .ok (.fullName (statsAlias owner))
        else if field = "team" then .ok (.column (statsAlias owner) "playerteamName")
        else .ok (.column (statsAlias owner) column)
      else .ok (.column Schema.gamesTable column)

def readsStat (r : Roster) : Expr → Bool
  | .field owner field =>
    (r.find? owner).any fun b =>
      !(b.kind == .player && field == "played") &&
        Schema.isStatColumn (Schema.column b.kind field)
  | .name text => Schema.isStatColumn (Schema.column .player text)
  | _ => false

def seasonTerm (s : Season) : Term Value :=
  .both (.compare (.column Schema.gamesTable "gameDate") .ge (.parameter (.string s.first.iso)))
    (.compare (.column Schema.gamesTable "gameDate") .le (.parameter (.string s.last.iso)))

def nameTerm (text : String) : Term α :=
  if text = "game_date" then .column Schema.gamesTable "gameDate" else .word text

/-- A comparison whose two sides have been read already. Players are compared by who
    they are, and two fields `played` are equal and unequal alike. -/
def compareTerm (r : Roster) (left : Expr) (op : Comparison) (right : Expr)
    (leftTerm rightTerm : Term Value) : Term Value :=
  let plain : Term Value :=
    .compare (if r.readsStat left then .cast leftTerm .real else leftTerm) op rightTerm
  if op.isEquality then
    match left, right with
    | .name a, .name b =>
      if r.isPlayer a && r.isPlayer b then
        .compare (.column (statsAlias a) "personId") op (.column (statsAlias b) "personId")
      else plain
    | .field _ f, .field _ g => if f = "played" && g = "played" then .always else plain
    | _, _ => plain
  else plain

def seasonLiteral? (left : Expr) (op : Comparison) (right : Expr) : Option Value :=
  match left, op, right with
  | .name "season", .eq, .literal value _ => some value
  | _, _, _ => none

def term (r : Roster) : Expr → Except Fault (Term Value)
  | .compare left op right =>
    match seasonLiteral? left op right with
    | some value =>
      match Season.ofName? value.text with
      | some s => .ok (seasonTerm s)
      | none => .error (.unknownSeason value.text)
    | none => do
      let leftTerm ← r.term left
      let rightTerm ← r.term right
      return r.compareTerm left op right leftTerm rightTerm
  | .field owner field => r.fieldTerm owner field
  | .literal value _ => .ok (.parameter value)
  | .name text => .ok (nameTerm text)
  | .aggregate f argument => do
    let inner ← r.term argument
    return .aggregate f inner

def literalCondition (r : Roster) (b : Binding) : Option (Term Value) :=
  match b.kind, b.target with
  | .player, .literal value =>
    some (.compare (.fullName (r.aliasing.stats b.name)) .eq (.parameter value))
  | _, _ => none

/-- What a relation demands of a variable. A team that is an opponent may be on either
    side of the game. -/
def relationCondition (r : Roster) (b : Binding) : Option (Term Value) :=
  match b.relation? with
  | none => none
  | some (relation, source) =>
    match relation, b.kind, (r.find? source).map Binding.kind with
    | .opponent, .player, some .player | .opponent, .opponent, some .player =>
      some (.group (.compare (.column (statsAlias b.name) "playerteamName") .ne
        (.column (statsAlias source) "playerteamName")))
    | .opponent, .team, _ =>
      some (.group (.either
        (.compare (.column (teamAlias b.name) "teamId") .eq
          (.column Schema.gamesTable "hometeamId"))
        (.compare (.column (teamAlias b.name) "teamId") .eq
          (.column Schema.gamesTable "awayteamId"))))
    | .team, .team, some .player => some .always
    | _, _, _ => none

def sameGame (a b : String) : Term α :=
  .compare (.column (statsAlias a) "gameId") .eq (.column (statsAlias b) "gameId")

def sameGameChain (r : Roster) : List (Term α) :=
  let names := Names.sorted r.players
  (names.zip names.tail).map fun (a, b) => sameGame a b

def bindingConditions (r : Roster) : List (Term Value) :=
  r.entries.filterMap r.literalCondition ++ r.entries.filterMap r.relationCondition ++
    r.sameGameChain

def filterTerms (r : Roster) : List Expr → Except Fault (List (Term Value))
  | [] => .ok []
  | e :: es => do
    let t ← r.term e
    let ts ← r.filterTerms es
    return t :: ts

def conditions (r : Roster) (filters : List Expr) : Except Fault (List (Term Value)) := do
  let own ← r.filterTerms filters
  return r.bindingConditions ++ own

end Roster
end BoxScore
