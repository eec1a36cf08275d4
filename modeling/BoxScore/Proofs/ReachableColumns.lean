import BoxScore.Proofs.JoinedTables

/- Which columns a statement can read at all. The name of a player is read from a table that
   no statement joins, every other field from one that is joined. A selected column is read
   from the games or from the statistics that all variables share, whether or not they do
   share them. -/
namespace BoxScore

open Sql Token

namespace Roster

variable {r : Roster} {b : Binding}

instance (r : Roster) (table : String) : Decidable (r.Joined table) :=
  inferInstanceAs (Decidable (_ ∨ _))

instance (r : Roster) (text : String) : Decidable (r.Qualifies text) :=
  inferInstanceAs (Decidable (∀ table ∈ qualifiers text, r.Joined table))

theorem joined_cases {table : String} (joined : r.Joined table) :
    table = Schema.gamesTable ∨
      (r.aliasing = .shared ∧ ∃ kind, table = (Schema.sharedJoin kind).name) ∨
      (r.aliasing = .perVariable ∧ ∃ name, table = statsAlias name ∨ table = teamAlias name) := by
  rcases joined with games | member
  · exact Or.inl games
  · right
    unfold joins at member
    cases mode : r.aliasing with
    | shared =>
      rw [mode] at member
      obtain ⟨j, among, rfl⟩ := List.mem_map.mp member
      obtain ⟨kind, _, rfl⟩ := List.mem_map.mp among
      exact Or.inl ⟨rfl, kind, rfl⟩
    | perVariable =>
      rw [mode] at member
      simp only [variableJoins_names] at member
      rcases List.mem_append.mp member with stats | team
      · obtain ⟨name, _, rfl⟩ := List.mem_map.mp stats
        exact Or.inr ⟨rfl, name, Or.inl rfl⟩
      · obtain ⟨name, _, rfl⟩ := List.mem_map.mp team
        exact Or.inr ⟨rfl, name, Or.inr rfl⟩

theorem not_joined_of_ending {table : String} (other : table ≠ Schema.gamesTable)
    (unshared : r.aliasing = .shared → ∀ kind, table ≠ (Schema.sharedJoin kind).name)
    (ending : table.toList.reverse.take 2 ≠ ['s', 't'] ∧ table.toList.reverse.take 2 ≠ ['m', 'a']) :
    ¬ r.Joined table := by
  intro joined
  rcases joined_cases joined with games | ⟨shared, kind, same⟩ | ⟨_, name, rfl | rfl⟩
  · exact other games
  · exact unshared shared kind same
  · exact ending.1 (by simp [statsAlias])
  · exact ending.2 (by simp [teamAlias])

theorem players_not_joined (r : Roster) : ¬ r.Joined "players" :=
  not_joined_of_ending (by decide) (fun _ kind => by cases kind <;> decide) (by decide)

theorem playerAlias_not_joined (own : r.aliasing = .perVariable) (name : String) :
    ¬ r.Joined (name ++ "_player") := by
  refine not_joined_of_ending ?_ ?_ (by simp)
  · intro same
    have last := congrArg (·.toList.getLast?) same
    simp [Schema.gamesTable] at last
  · intro shared
    rw [own] at shared
    cases shared

theorem statistics_joined_iff (entry : b ∈ r.entries) (player : b.kind = .player) :
    r.Joined Schema.statisticsTable ↔ r.aliasing = .shared := by
  constructor
  · intro joined
    cases mode : r.aliasing with
    | shared => rfl
    | perVariable =>
      refine absurd joined (not_joined_of_ending (by decide) ?_ (by decide))
      intro shared
      rw [mode] at shared
      cases shared
  · intro shared
    have joined := stats_joined entry player
    rwa [shared] at joined

theorem playerName_uncovered (entry : b ∈ r.entries) (player : b.kind = .player) :
    ∃ table, r.fieldTerm b.name "name" = .ok (.fullName table : Term Value) ∧ ¬ r.Joined table := by
  have found : r.lookup b.name = .ok b := by
    simp [lookup, (find?_eq_some_iff r b.name b).mpr ⟨entry, rfl⟩]
  cases mode : r.aliasing with
  | shared => exact ⟨"players", by simp [fieldTerm, found, player, mode], r.players_not_joined⟩
  | perVariable =>
    exact ⟨b.name ++ "_player", by simp [fieldTerm, found, player, mode],
      playerAlias_not_joined mode b.name⟩

theorem fieldTerm_covered_iff (sound : r.Sound) (entry : b ∈ r.entries) (field : String) :
    ∃ t : Term Value, r.fieldTerm b.name field = .ok t ∧
      (r.Covers t ↔ ¬ (b.kind = .player ∧ field = "name")) := by
  by_cases playerName : b.kind = .player ∧ field = "name"
  · obtain ⟨player, rfl⟩ := playerName
    obtain ⟨table, read, apart⟩ := playerName_uncovered entry player
    exact ⟨_, read, by simp [apart, player]⟩
  · obtain ⟨t, read, covered⟩ := fieldTerm_covered (α := Value) sound entry playerName
    exact ⟨t, read, iff_of_true covered playerName⟩

theorem qualifies_iff_covers {t : Term Value} (words : ∀ n ∈ t.names, isWord n) (bound : Nat) :
    r.Qualifies ((t.numbered bound).text Term.placeholder) ↔ r.Covers t := by
  constructor
  · intro qualified table member
    exact qualified table ((t.mem_qualifiers_numbered words bound table).mpr member)
  · intro covered
    exact qualifies_of_covers covered words bound

end Roster

/-- A field of a variable is read from a table that the statement has, unless it is the name
    of a player. -/
theorem field_readable_iff {source : String} {p : Program} {r : Roster}
    (parsed : Program.parse source = .ok p) (entered : p.roster = .ok r) :
    ∀ b ∈ r.entries, ∀ field, ∃ t : Term Value, r.fieldTerm b.name field = .ok t ∧
      (r.Covers t ↔ ¬ (b.kind = .player ∧ field = "name")) ∧
      (isWord field → ∀ bound, r.Qualifies ((t.numbered bound).text Term.placeholder) ↔
        ¬ (b.kind = .player ∧ field = "name")) := by
  intro b entry field
  have sound : r.Sound := Roster.declareAll_sound Roster.empty_sound entered
  have words : ∀ n ∈ r.names, isWord n := fun n member =>
    parse_words parsed n (roster_names entered n member)
  obtain ⟨t, read, covered⟩ := Roster.fieldTerm_covered_iff sound entry field
  refine ⟨t, read, covered, fun word bound => ?_⟩
  have named := naming_isWord.fieldTerm_names read words
    (words b.name (Roster.mem_names entry b.name List.mem_cons_self)) word
  rw [Roster.qualifies_iff_covers named bound, covered]

theorem tied_opponent_readable :
    ∃ p r, Program.parse "Player p Opponent o = p.opponent" = .ok p ∧ p.roster = .ok r ∧
      r.entries.map Binding.kind = [.player, .opponent] ∧
      ∀ b ∈ r.entries, ∃ t : Term Value, r.fieldTerm b.name "name" = .ok t ∧
        ∀ bound, r.Qualifies ((t.numbered bound).text Term.placeholder) ↔ b.kind ≠ .player := by
  have parsed : Program.parse "Player p Opponent o = p.opponent" = .ok ⟨[⟨.player, "p", none⟩,
      ⟨.opponent, "o", some (.field "p" "opponent")⟩], none⟩ := by
    decide +kernel
  refine ⟨_, .ofBindings [⟨"p", .player, .unbound⟩, ⟨"o", .opponent, .related .opponent "p"⟩],
    parsed, by decide, rfl, ?_⟩
  intro b entry
  obtain ⟨t, read, _, readable⟩ := field_readable_iff parsed (by decide) b entry "name"
  exact ⟨t, read, fun bound => by simpa using readable (by decide) bound⟩

def askedForName : Program where
  declarations := [⟨.player, "p", none⟩]
  query := some ⟨.games, [.compare (.field "p" "name") .eq
    (.literal (.string "Kobe Bryant") .string)], none, none, none⟩

/-- The one condition of this query reads a table that its statement does not join. -/
theorem player_name_unreadable :
    Program.parse "Player p get games where p.name = \"Kobe Bryant\"" = .ok askedForName ∧
    ∃ r, askedForName.roster = .ok r ∧ r.joins.map Join.name = ["player_statistics"] ∧
      ∃ t : Term Value, r.fieldTerm "p" "name" = .ok t ∧
        (t.numbered 0).text Term.placeholder =
          "TRIM(players.firstName || ' ' || players.lastName)" ∧
        ¬ r.Qualifies ((t.numbered 0).text Term.placeholder) := by
  refine ⟨by decide +kernel, .ofBindings [⟨"p", .player, .unbound⟩], by decide, by decide,
    .fullName "players", by decide, by decide, by decide⟩

def Sql.Select.ShowsJoined {α : Type} (s : Select α) : Prop :=
  ∀ i ∈ s.projection, ∀ table ∈ qualifiers i.text,
    table = s.source ∨ table ∈ s.joins.map Join.name

instance {α : Type} (s : Select α) : Decidable s.ShowsJoined :=
  inferInstanceAs (Decidable (∀ i ∈ s.projection, ∀ table ∈ qualifiers i.text,
    table = s.source ∨ table ∈ s.joins.map Join.name))

theorem Schema.selectItem_tables (field : String) :
    (selectItem field).term.tables =
      if field = "date" ∨ field = "opponent" then [gamesTable]
      else if field = "name" then ["players"] else [statisticsTable] := by
  unfold selectItem
  split <;> simp_all [Term.tables]

theorem Roster.selectItem_covered_iff {r : Roster} {b : Binding} (entry : b ∈ r.entries)
    (player : b.kind = .player) (field : String) :
    r.Covers (Schema.selectItem field).term ↔
      field = "date" ∨ field = "opponent" ∨ r.aliasing = .shared ∧ field ≠ "name" := by
  rw [Covers, Schema.selectItem_tables]
  by_cases game : field = "date" ∨ field = "opponent"
  · rw [if_pos game, ← or_assoc]
    exact iff_of_true (by simp) (Or.inl game)
  · by_cases name : field = "name"
    · simp [name, r.players_not_joined]
    · rw [if_neg game, if_neg name, ← or_assoc, or_iff_right game]
      simpa [name] using statistics_joined_iff entry player

theorem Roster.item_qualifies_iff {r : Roster} {i : Item} (words : ∀ n ∈ i.names, isWord n) :
    r.Qualifies i.text ↔ r.Covers i.term := by
  constructor
  · intro qualified table member
    exact qualified table ((i.mem_qualifiers_text words table).mpr member)
  · intro covered table member
    exact covered table ((i.mem_qualifiers_text words table).mp member)

theorem Plan.gamesSelect_showsJoined_iff (r : Roster) (limit : Option UInt64) {q : Query}
    {s : Selection} (filters : List (Term Value)) (scope : q.scope = .games)
    (chosen : q.selection = some s) :
    (gamesSelect r limit q filters).ShowsJoined ↔
      ∀ field ∈ s.fields, r.Qualifies (Schema.selectItem field).text := by
  simp only [Select.ShowsJoined, gamesSelect, chosen, scope, Projection.selected,
    List.forall_mem_map]
  rfl

/-- The statement of a query about games that selects what it shows, in a program with a
    player. All that it shows can be read exactly if each field is the day or the opponent
    of the game, or is no name while the statistics are shared. -/
theorem selection_readable_iff {settings : Settings} {source : String} {plan : Plan}
    (compiled : compile settings source = .ok plan) {p : Program} {q : Query} {s : Selection}
    (parsed : Program.parse source = .ok p) (asked : p.query = some q) (scope : q.scope = .games)
    (chosen : q.selection = some s) (player : ∃ d ∈ p.declarations, d.kind = .player) :
    ∃ r filters, p.roster = .ok r ∧ r.conditions q.filters = .ok filters ∧
      plan = Plan.ofSelect r q (Plan.gamesSelect r settings.defaultLimit q filters) ∧
      ((Plan.gamesSelect r settings.defaultLimit q filters).ShowsJoined ↔
        ∀ field ∈ s.fields,
          field = "date" ∨ field = "opponent" ∨ r.aliasing = .shared ∧ field ≠ "name") := by
  obtain ⟨program, r, again, entered, planned⟩ := compile_ok compiled
  cases parsed.symm.trans again
  rw [asked, Plan.ofQuery?, Plan.ofQuery, scope] at planned
  obtain ⟨filters, read, finish⟩ := Reading.bind_eq_ok planned
  cases finish
  refine ⟨r, filters, entered, read, rfl, ?_⟩
  obtain ⟨d, declared, kind⟩ := player
  have entry := Roster.declared_entry entered declared
  rw [Plan.gamesSelect_showsJoined_iff r _ filters scope chosen]
  refine forall₂_congr fun field among => ?_
  have word : isWord field := parse_words parsed field <| by
    simp only [Program.names, asked, Query.names, chosen, List.mem_append, Option.toList_some,
      List.flatMap_cons, List.flatMap_nil, List.append_nil]
    exact Or.inr (Or.inl (Or.inr among))
  rw [Roster.item_qualifies_iff (naming_isWord.selectItem_names word),
    Roster.selectItem_covered_iff entry kind]

def pointsOfOnePlayer : Program where
  declarations := [⟨.player, "p", none⟩]
  query := some ⟨.games, [], some ⟨["date", "points"], true⟩, none, none⟩

theorem pointsOfOnePlayer_readable :
    ∃ plan r filters q, compile .standard "Player p get games select date, points" = .ok plan ∧
      pointsOfOnePlayer.roster = .ok r ∧ pointsOfOnePlayer.query = some q ∧
      plan = Plan.ofSelect r q (Plan.gamesSelect r none q filters) ∧
      (Plan.gamesSelect r none q filters).ShowsJoined := by
  have read : Program.parse "Player p get games select date, points" = .ok pointsOfOnePlayer ∧
      (compile .standard "Player p get games select date, points").toBool := by
    decide +kernel
  have entered : pointsOfOnePlayer.roster = .ok (.ofBindings [⟨"p", .player, .unbound⟩]) := by
    decide
  cases compiled : compile .standard "Player p get games select date, points" with
  | error fault =>
    rw [compiled] at read
    cases read.2
  | ok plan =>
    obtain ⟨r, filters, again, _, same, readable⟩ :=
      selection_readable_iff compiled read.1 rfl rfl rfl ⟨_, List.mem_cons_self, rfl⟩
    cases entered.symm.trans again
    exact ⟨plan, _, filters, _, rfl, entered, rfl, same, readable.mpr (by decide)⟩

def pointsOfTwoPlayers : Program where
  declarations := [⟨.player, "p", none⟩, ⟨.player, "q", none⟩]
  query := some ⟨.games, [], some ⟨["points"], true⟩, none, none⟩

/-- With two players the points are still read from the shared statistics, and nobody joins
    them. -/
theorem pointsOfTwoPlayers_unreadable :
    Program.parse "Player p Player q get games select points" = .ok pointsOfTwoPlayers ∧
    ∃ r q filters, pointsOfTwoPlayers.roster = .ok r ∧ pointsOfTwoPlayers.query = some q ∧
      compile .standard "Player p Player q get games select points" =
        .ok (Plan.ofSelect r q (Plan.gamesSelect r none q filters)) ∧
      (Plan.gamesSelect r none q filters).text =
        "SELECT player_statistics.points AS points FROM games" ++
        " LEFT JOIN player_statistics AS p_stats ON games.gameId = p_stats.gameId" ++
        " LEFT JOIN player_statistics AS q_stats ON games.gameId = q_stats.gameId" ++
        " WHERE p_stats.gameId = q_stats.gameId" ∧
      ¬ (Plan.gamesSelect r none q filters).ShowsJoined := by
  refine ⟨by decide +kernel, .ofBindings [⟨"p", .player, .unbound⟩, ⟨"q", .player, .unbound⟩],
    ⟨.games, [], some ⟨["points"], true⟩, none, none⟩, [Roster.sameGame "p" "q"], by decide, rfl,
    ?_⟩
  decide +kernel

end BoxScore
