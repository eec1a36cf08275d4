import BoxScore.Proofs.Declaring
import BoxScore.Proofs.Qualifiers
import BoxScore.Proofs.StatementNames

/- The tables that a statement reads are the games and those that it joins. What writes a
   condition or shows a column does not look at the joins; that the names agree rests on
   when variables have joins of their own, and on a variable being tied to a player only. -/
namespace BoxScore

open Sql Token

namespace Roster

variable {α : Type} {r : Roster} {b : Binding}

def Joined (r : Roster) (table : String) : Prop :=
  table = Schema.gamesTable ∨ table ∈ r.joins.map Join.name

def Covers (r : Roster) (t : Term α) : Prop := ∀ table ∈ t.tables, r.Joined table

def Qualifies (r : Roster) (text : String) : Prop := ∀ table ∈ qualifiers text, r.Joined table

@[simp] theorem covers_column (table name : String) :
    r.Covers (.column table name : Term α) ↔ r.Joined table := by
  simp [Covers, Term.tables]

@[simp] theorem covers_fullName (table : String) :
    r.Covers (.fullName table : Term α) ↔ r.Joined table := by
  simp [Covers, Term.tables]

@[simp] theorem covers_parameter (value : α) : r.Covers (.parameter value) := by
  simp [Covers, Term.tables]

@[simp] theorem covers_cast (t : Term α) (type : NumericType) :
    r.Covers (.cast t type) ↔ r.Covers t := Iff.rfl

@[simp] theorem covers_distance (left right : Term α) :
    r.Covers (.distance left right) ↔ r.Covers left ∧ r.Covers right := List.forall_mem_append

@[simp] theorem covers_compare (left right : Term α) (op : Comparison) :
    r.Covers (.compare left op right) ↔ r.Covers left ∧ r.Covers right := List.forall_mem_append

@[simp] theorem covers_group (t : Term α) : r.Covers (.group t) ↔ r.Covers t := Iff.rfl

@[simp] theorem covers_always (r : Roster) : r.Covers (.always : Term α) := by
  simp [Covers, Term.tables]

@[simp] theorem games_joined (r : Roster) : r.Joined Schema.gamesTable := Or.inl rfl

theorem qualifies_of_covers {t : Term α} (covered : r.Covers t) (words : ∀ n ∈ t.names, isWord n)
    (bound : Nat) : r.Qualifies ((t.numbered bound).text Term.placeholder) := by
  intro table member
  exact covered table ((t.mem_qualifiers_numbered words bound table).mp member)

theorem statsAlias_injective : Function.Injective statsAlias :=
  fun _ _ => (String.append_left_inj "_stats").mp

theorem teamAlias_injective : Function.Injective teamAlias :=
  fun _ _ => (String.append_left_inj "_team").mp

theorem statsAlias_ne_teamAlias (a b : String) : statsAlias a ≠ teamAlias b := by
  intro same
  have last := congrArg (·.toList.getLast?) same
  simp [statsAlias, teamAlias] at last

theorem statsAlias_ne_games (name : String) : statsAlias name ≠ Schema.gamesTable := by
  intro same
  have size := congrArg (·.toList.length) same
  simp [statsAlias, Schema.gamesTable] at size

theorem teamAlias_ne_games (name : String) : teamAlias name ≠ Schema.gamesTable := by
  intro same
  have last := congrArg (·.toList.getLast?) same
  simp [teamAlias, Schema.gamesTable] at last

theorem sharedJoins_distinct (r : Roster) : (r.sharedJoins.map Join.name).Nodup := by
  have all : (([.player, .team, .opponent].map Schema.sharedJoin).map Join.name).Nodup := by decide
  exact all.sublist (((List.filter_sublist).map _).map _)

theorem filtered_names_distinct (r : Roster) (kept : Binding → Bool) :
    ((r.entries.filter kept).map Binding.name).Nodup :=
  r.distinct.sublist (List.filter_sublist.map _)

theorem variableJoins_names (r : Roster) : r.variableJoins.map Join.name =
    ((r.entries.filter readsStats).map Binding.name).map statsAlias ++
      ((r.entries.filter joinsTeam).map Binding.name).map teamAlias := by
  simp only [variableJoins, List.map_append, List.map_map]
  rfl

theorem variableJoins_distinct (r : Roster) : (r.variableJoins.map Join.name).Nodup := by
  rw [variableJoins_names, List.nodup_append]
  refine ⟨(r.filtered_names_distinct _).map statsAlias_injective,
    (r.filtered_names_distinct _).map teamAlias_injective, ?_⟩
  intro a first b second
  obtain ⟨name, _, rfl⟩ := List.mem_map.mp first
  obtain ⟨other, _, rfl⟩ := List.mem_map.mp second
  exact statsAlias_ne_teamAlias name other

theorem joins_distinct (r : Roster) : (r.joins.map Join.name).Nodup := by
  unfold joins
  split
  · exact r.sharedJoins_distinct
  · exact r.variableJoins_distinct

theorem games_not_joined (r : Roster) : Schema.gamesTable ∉ r.joins.map Join.name := by
  unfold joins
  split
  · intro member
    obtain ⟨j, among, same⟩ := List.mem_map.mp member
    obtain ⟨kind, _, rfl⟩ := List.mem_map.mp among
    cases kind <;> exact absurd same (by decide)
  · rw [variableJoins_names]
    intro member
    rcases List.mem_append.mp member with stats | team
    · obtain ⟨name, _, same⟩ := List.mem_map.mp stats
      exact statsAlias_ne_games name same
    · obtain ⟨name, _, same⟩ := List.mem_map.mp team
      exact teamAlias_ne_games name same

theorem relation?_of_isRelatedBy {relation : Relation} (related : b.isRelatedBy relation) :
    ∃ source, b.relation? = some (relation, source) := by
  cases tied : b.relation? with
  | none => simp [Binding.isRelatedBy, tied] at related
  | some relating =>
    obtain ⟨other, source⟩ := relating
    have same : other = relation := by simpa [Binding.isRelatedBy, tied] using related
    exact ⟨source, by rw [same]⟩

theorem readsStats_iff : readsStats b ↔ b.kind ≠ .team := by
  cases kind : b.kind <;> simp [readsStats, kind]

theorem statsAlias_joined (own : r.aliasing = .perVariable) (entry : b ∈ r.entries)
    (kind : b.kind ≠ .team) : r.Joined (statsAlias b.name) := by
  refine Or.inr ?_
  rw [joins, own]
  simp only [variableJoins_names]
  refine List.mem_append_left _ (List.mem_map_of_mem (List.mem_map_of_mem ?_))
  exact List.mem_filter.mpr ⟨entry, readsStats_iff.mpr kind⟩

theorem stats_joined (entry : b ∈ r.entries) (player : b.kind = .player) :
    r.Joined (r.aliasing.stats b.name) := by
  cases mode : r.aliasing with
  | shared =>
    refine Or.inr ?_
    have declared : r.hasKind .player := List.any_eq_true.mpr ⟨b, entry, by simp [player]⟩
    rw [joins, mode]
    simp [sharedJoins, declared, Aliasing.stats, Schema.sharedJoin, Join.name]
  | perVariable => exact statsAlias_joined mode entry (by simp [player])

section Tied

variable {relation : Relation} {source : String}

theorem perVariable_of_tied (entry : b ∈ r.entries)
    (tied : b.relation? = some (relation, source)) : r.aliasing = .perVariable := by
  have any : r.hasRelated :=
    List.any_eq_true.mpr ⟨b, entry, by simp [Binding.isRelated, tied]⟩
  simp [aliasing, any]

theorem tied_joined (entry : b ∈ r.entries) (tied : b.relation? = some (relation, source))
    (kind : b.kind ≠ .team) : r.Joined (statsAlias b.name) :=
  statsAlias_joined (perVariable_of_tied entry tied) entry kind

theorem source_joined (sound : r.Sound) (entry : b ∈ r.entries)
    (tied : b.relation? = some (relation, source)) :
    ∃ s, r.find? source = some s ∧ s.kind = .player ∧ r.Joined (statsAlias source) := by
  obtain ⟨before, after, split⟩ := List.append_of_mem entry
  obtain ⟨s, earlier, rfl, player, _⟩ := sound.tied before b after relation source split tied
  have present : s ∈ r.entries := by simp [split, earlier]
  exact ⟨s, (sound.found _ _).mpr ⟨present, rfl⟩, player,
    statsAlias_joined (perVariable_of_tied entry tied) present (by simp [player])⟩

end Tied

theorem literalCondition_covered (entry : b ∈ r.entries) {t : Term Value}
    (tied : r.literalCondition b = some t) : r.Covers t := by
  unfold literalCondition at tied
  split at tied
  · rename_i player _
    cases tied
    simpa using stats_joined entry player
  · cases tied

theorem relationCondition_covered (sound : r.Sound) (entry : b ∈ r.entries)
    (opposed : b.isRelatedBy .opponent) (kind : b.kind ≠ .team) :
    ∃ t, r.relationCondition b = some t ∧ r.Covers t := by
  obtain ⟨source, tied⟩ := relation?_of_isRelatedBy opposed
  obtain ⟨s, found, player, behind⟩ := source_joined sound entry tied
  have joined := tied_joined entry tied kind
  refine ⟨.group (.compare (.column (statsAlias b.name) "playerteamName") .ne
    (.column (statsAlias source) "playerteamName")), ?_, ?_⟩
  · cases own : b.kind with
    | team => exact absurd own kind
    | player => simp [relationCondition, tied, own, found, player]
    | opponent => simp [relationCondition, tied, own, found, player]
  · simpa using ⟨joined, behind⟩

theorem mem_players {name : String} (member : name ∈ r.players) :
    ∃ b ∈ r.entries, b.name = name ∧ b.kind = .player := by
  obtain ⟨b, among, rfl⟩ := List.mem_map.mp member
  obtain ⟨entry, player⟩ := List.mem_filter.mp among
  exact ⟨b, entry, rfl, by simpa [Binding.isPlayer] using player⟩

theorem perVariable_of_sameGame {t : Term α} (chained : t ∈ r.sameGameChain) :
    r.aliasing = .perVariable := by
  cases mode : r.aliasing with
  | perVariable => rfl
  | shared =>
    have few : r.players.length ≤ 1 := by
      by_contra many
      have several : 1 < r.players.length := by omega
      simp [aliasing, several] at mode
    -- One player or none has no neighbour, so the chain is empty.
    match names : r.players, few with
    | [], _ => simp [sameGameChain, names, Names.sorted] at chained
    | [name], _ => simp [sameGameChain, names, Names.sorted, Names.insert] at chained

theorem sameGameChain_covered {t : Term α} (chained : t ∈ r.sameGameChain) : r.Covers t := by
  have own := perVariable_of_sameGame chained
  have joined : ∀ name ∈ Names.sorted r.players, r.Joined (statsAlias name) := by
    intro name member
    obtain ⟨b, entry, rfl, player⟩ := mem_players (Names.mem_sorted.mp member)
    exact statsAlias_joined own entry (by simp [player])
  obtain ⟨⟨a, b⟩, among, rfl⟩ := List.mem_map.mp chained
  obtain ⟨first, second⟩ := List.of_mem_zip among
  simpa [sameGame] using ⟨joined a first, joined b (List.mem_of_mem_tail second)⟩

theorem isPlayer_entry {name : String} (player : r.isPlayer name) :
    ∃ b ∈ r.entries, b.name = name ∧ b.kind = .player := by
  obtain ⟨b, found, kind⟩ := (Option.any_eq_true ..).mp player
  obtain ⟨entry, named⟩ := (find?_eq_some_iff r name b).mp found
  exact ⟨b, entry, named, by simpa [Binding.isPlayer] using kind⟩

theorem identity_covered (own : r.aliasing = .perVariable) {a b : String} {op : Comparison}
    (equality : op.isEquality) (first : r.isPlayer a) (second : r.isPlayer b) :
    ∃ t, r.term (.compare (.name a) op (.name b)) = .ok t ∧ r.Covers t := by
  obtain ⟨c, left, rfl, leftKind⟩ := isPlayer_entry first
  obtain ⟨d, right, rfl, rightKind⟩ := isPlayer_entry second
  have leftJoined := statsAlias_joined own left (by simp [leftKind])
  have rightJoined := statsAlias_joined own right (by simp [rightKind])
  have season : seasonLiteral? (.name c.name) op (.name d.name) = none := by
    simp [seasonLiteral?]
  refine ⟨r.compareTerm (.name c.name) op (.name d.name) (nameTerm c.name) (nameTerm d.name),
    ?_, ?_⟩
  · rw [term, season]
    rfl
  · simpa [compareTerm, equality, first, second] using ⟨leftJoined, rightJoined⟩

theorem standard_covered (r : Roster) (referenced : List String) :
    ∀ i ∈ Projection.standard r referenced, r.Covers i.term := by
  unfold Projection.standard
  split
  · simp [Projection.gameDate, Projection.sides]
  · rename_i first rest players
    obtain ⟨b, entry, rfl, player⟩ := mem_players (by simp [players] : first ∈ r.players)
    have joined := stats_joined entry player
    rw [List.cons_append, List.forall_mem_cons, List.forall_mem_append]
    refine ⟨?_, ?_, ?_⟩
    · simp [Projection.gameDate]
    · simp [Projection.headline, joined]
    · intro i member
      obtain ⟨field, _, rfl⟩ := List.mem_map.mp member
      simpa using joined

theorem fieldTerm_covered (sound : r.Sound) (entry : b ∈ r.entries) {field : String}
    (plain : ¬ (b.kind = .player ∧ field = "name")) :
    ∃ t : Term α, r.fieldTerm b.name field = .ok t ∧ r.Covers t := by
  have found : r.lookup b.name = .ok b := by
    simp [lookup, (sound.found b.name b).mpr ⟨entry, rfl⟩]
  cases kind : b.kind with
  | player =>
    have joined := stats_joined entry kind
    have other : field ≠ "name" := fun same => plain ⟨kind, same⟩
    by_cases played : field = "played"
    · exact ⟨.always, by simp [fieldTerm, found, kind, played], r.covers_always⟩
    · refine ⟨.column (r.aliasing.stats b.name) (Schema.column .player field), ?_, ?_⟩
      · cases mode : r.aliasing <;>
          simp [fieldTerm, found, kind, played, other, mode, Aliasing.stats]
      · simpa using joined
  | team =>
    -- The team of a player is read from the player's statistics, any other from the game.
    by_cases ofTeam : ∃ source, b.relation? = some (.team, source)
    · obtain ⟨source, tied⟩ := ofTeam
      obtain ⟨_, _, _, joined⟩ := source_joined sound entry tied
      refine ⟨.column (statsAlias source)
        (if field = "name" then "playerteamName" else "playerteam" ++ field), ?_, ?_⟩
      · simp [fieldTerm, found, kind, tied]
      · simpa using joined
    · refine ⟨.column Schema.gamesTable (Schema.column .team field), ?_, ?_⟩
      · simp only [fieldTerm, found, kind]
        split
        · exact absurd ⟨_, ‹_›⟩ ofTeam
        · rfl
      · simp
  | opponent =>
    by_cases opposed : b.isRelatedBy .opponent
    · obtain ⟨source, tied⟩ := relation?_of_isRelatedBy opposed
      have joined := tied_joined entry tied (by simp [kind])
      simp only [fieldTerm, found, kind, opposed, if_true]
      split
      · exact ⟨_, rfl, by simpa using joined⟩
      · split
        · exact ⟨_, rfl, by simpa using joined⟩
        · exact ⟨_, rfl, by simpa using joined⟩
    · exact ⟨.column Schema.gamesTable (Schema.column .opponent field),
        by simp [fieldTerm, found, kind, opposed], by simp⟩

/-- The parts of a statement that are written without a look at its joins qualify their
    columns by what is joined. A field that is no word may bring points of its own, so of
    its text nothing is said, only of the table it is read from. -/
structure ReadsJoined (r : Roster) : Prop where
  literals : ∀ b ∈ r.entries, ∀ t, r.literalCondition b = some t → ∀ bound,
    r.Qualifies ((t.numbered bound).text Term.placeholder)
  opponents : ∀ b ∈ r.entries, b.isRelatedBy .opponent → b.kind ≠ .team →
    ∃ t, r.relationCondition b = some t ∧ ∀ bound,
      r.Qualifies ((t.numbered bound).text Term.placeholder)
  chain : ∀ t ∈ (r.sameGameChain : List (Term Value)), ∀ bound,
    r.Qualifies ((t.numbered bound).text Term.placeholder)
  identities : r.aliasing = .perVariable → ∀ a b op, r.isPlayer a → r.isPlayer b →
    op.isEquality → ∃ t, r.term (.compare (.name a) op (.name b)) = .ok t ∧ ∀ bound,
      r.Qualifies ((t.numbered bound).text Term.placeholder)
  shown : ∀ referenced, ∀ i ∈ Projection.standard r referenced, r.Qualifies i.text
  fields : ∀ b ∈ r.entries, ∀ field, ¬ (b.kind = .player ∧ field = "name") →
    ∃ t : Term Value, r.fieldTerm b.name field = .ok t ∧ r.Covers t ∧
      (isWord field → ∀ bound, r.Qualifies ((t.numbered bound).text Term.placeholder))

theorem readsJoined_of_words (sound : r.Sound) (words : ∀ n ∈ r.names, isWord n) :
    r.ReadsJoined where
  literals b entry t tied :=
    qualifies_of_covers (literalCondition_covered entry tied)
      (naming_isWord.literalCondition_names (fun n own => words n (mem_names entry n own)) tied)
  opponents b entry opposed kind := by
    obtain ⟨t, tied, covered⟩ := relationCondition_covered sound entry opposed kind
    have named := naming_isWord.relationCondition_names
      (fun n own => words n (mem_names entry n own)) tied
    exact ⟨t, tied, qualifies_of_covers covered named⟩
  chain t member :=
    qualifies_of_covers (sameGameChain_covered member)
      (naming_isWord.sameGameChain_names words t member)
  identities own a b op first second equality := by
    obtain ⟨t, read, covered⟩ := identity_covered own equality first second
    have player : ∀ name, r.isPlayer name → isWord name := by
      intro name isPlayer
      obtain ⟨c, entry, rfl, _⟩ := isPlayer_entry isPlayer
      exact words c.name (mem_names entry c.name List.mem_cons_self)
    have named := naming_isWord.term_names words read
      (by simpa [Expr.names] using ⟨player a first, player b second⟩)
    exact ⟨t, read, qualifies_of_covers covered named⟩
  shown referenced i member := by
    intro table read
    have named := naming_isWord.standard_names words referenced i member
    exact r.standard_covered referenced i member table ((i.mem_qualifiers_text named table).mp read)
  fields b entry field plain := by
    obtain ⟨t, read, covered⟩ := fieldTerm_covered sound entry plain
    refine ⟨t, read, covered, fun word => qualifies_of_covers covered ?_⟩
    exact naming_isWord.fieldTerm_names read words
      (words b.name (mem_names entry b.name List.mem_cons_self)) word

end Roster

/-- The joined tables of a program that is read and entered have names of their own, and
    its statements read no other table but the games. -/
theorem joined_tables_closed {source : String} {p : Program} {r : Roster}
    (parsed : Program.parse source = .ok p) (entered : p.roster = .ok r) :
    (r.joins.map Join.name).Nodup ∧ Schema.gamesTable ∉ r.joins.map Join.name ∧
      r.ReadsJoined := by
  have sound : r.Sound := Roster.declareAll_sound Roster.empty_sound entered
  have words : ∀ n ∈ r.names, isWord n := fun n member =>
    parse_words parsed n (roster_names entered n member)
  exact ⟨r.joins_distinct, r.games_not_joined, Roster.readsJoined_of_words sound words⟩

theorem tied_variables_closed :
    ∃ p r, Program.parse
        "Player p = \"A\" Player q = p.opponent Opponent o = p.opponent Team t = p.team" = .ok p ∧
      p.roster = .ok r ∧ r.joins.map Join.name = ["p_stats", "q_stats", "o_stats"] ∧
      r.ReadsJoined := by
  have names : ((Program.parse
      "Player p = \"A\" Player q = p.opponent Opponent o = p.opponent Team t = p.team").bind
        Program.roster).map (·.joins.map Join.name) = .ok ["p_stats", "q_stats", "o_stats"] := by
    decide +kernel
  cases parsed : Program.parse
      "Player p = \"A\" Player q = p.opponent Opponent o = p.opponent Team t = p.team" with
  | error fault =>
    rw [parsed] at names
    cases names
  | ok p =>
    rw [parsed] at names
    cases entered : p.roster with
    | error fault =>
      simp [Except.bind, Except.map, entered] at names
    | ok r =>
      have joined : r.joins.map Join.name = ["p_stats", "q_stats", "o_stats"] := by
        simpa [Except.bind, Except.map, entered] using names
      exact ⟨p, r, rfl, entered, joined, (joined_tables_closed parsed entered).2.2⟩

end BoxScore
