import BoxScore.Proofs.Placeholders
import BoxScore.Proofs.Planning
import BoxScore.Proofs.ProgramNames
import BoxScore.Proofs.SortedNames

/- Where the names in a planned statement come from. Each of them is a fixed word, a name
   of the program, or the two joined, so what holds of words and survives joining holds of
   all names of the statement as soon as it holds of those of the program. -/
namespace BoxScore

open Sql Token

structure Naming (ok : String → Prop) : Prop where
  word : ∀ text, isWord text → ok text
  join : ∀ a b, ok a → ok b → ok (a ++ b)

theorem naming_isWord : Naming (isWord ·) where
  word _ word := word
  join a b first second := by
    simp only [isWord, String.toList_append, List.all_append, Bool.and_eq_true]
    exact ⟨first, second⟩

theorem naming_clear : Naming ('?' ∉ ·.toList) where
  word text word member := absurd (List.all_eq_true.mp word '?' member) (by decide)
  join _ _ := append_clear

def Binding.names (b : Binding) : List String := b.name :: b.relation?.toList.map Prod.snd

def Roster.names (r : Roster) : List String := r.entries.flatMap Binding.names

def Expr.owners : Expr → List String
  | .compare left _ right => left.owners ++ right.owners
  | .field owner _ => [owner]
  | .aggregate _ argument => argument.owners
  | .literal _ _ | .name _ => []

theorem Declaration.binding_names (d : Declaration) : ∀ n ∈ d.binding.names, n ∈ d.names := by
  intro n member
  rcases List.mem_cons.mp member with rfl | source
  · exact List.mem_cons_self
  · refine List.mem_cons_of_mem _ ?_
    simp only [Binding.relation?, binding, List.mem_map, Option.mem_toList] at source
    obtain ⟨⟨relation, owner⟩, tied, rfl⟩ := source
    split at tied
    · rename_i same
      cases tied
      split at same
      · cases same
      · rename_i initial
        split at same <;> cases same
        simp [initial, Expr.names]
      · cases same
    · cases tied

theorem roster_names {p : Program} {r : Roster} (entered : p.roster = .ok r) :
    ∀ n ∈ r.names, n ∈ p.names := by
  intro n member
  simp only [Roster.names, roster_ok entered, List.mem_flatMap, List.mem_map] at member
  obtain ⟨b, ⟨d, declared, rfl⟩, inside⟩ := member
  exact List.mem_append_left _ (List.mem_flatMap.mpr ⟨d, declared, d.binding_names n inside⟩)

theorem Roster.mem_names {r : Roster} {b : Binding} (entry : b ∈ r.entries) :
    ∀ n ∈ b.names, n ∈ r.names :=
  fun _ inside => List.mem_flatMap.mpr ⟨b, entry, inside⟩

theorem Roster.find?_names {r : Roster} {name : String} {b : Binding}
    (found : r.find? name = some b) : ∀ n ∈ b.names, n ∈ r.names := by
  rw [find?_eq] at found
  exact mem_names (List.mem_of_find?_eq_some found)

theorem Binding.source_mem_names {b : Binding} {relation : Relation} {source : String}
    (tied : b.relation? = some (relation, source)) : source ∈ b.names := by
  simp [names, tied]

theorem labelled_names (t : Fixed) (label : String) :
    (Item.mk t (some label)).names = label :: t.names := rfl

namespace Naming

variable {α : Type} {ok : String → Prop}

theorem words (naming : Naming ok) {texts : List String} (checked : texts.all isWord) :
    ∀ n ∈ texts, ok n :=
  fun n member => naming.word n (List.all_eq_true.mp checked n member)

theorem statsAlias (naming : Naming ok) {name : String} (good : ok name) :
    ok (statsAlias name) := naming.join _ _ good (naming.word _ (by decide))

theorem teamAlias (naming : Naming ok) {name : String} (good : ok name) :
    ok (teamAlias name) := naming.join _ _ good (naming.word _ (by decide))

theorem stats (naming : Naming ok) (aliasing : Aliasing) {name : String} (good : ok name) :
    ok (aliasing.stats name) := by
  cases aliasing with
  | shared => exact naming.word Schema.statisticsTable (by decide)
  | perVariable => exact naming.statsAlias good

theorem column_words (kind : Entity) : ∀ entry ∈ Schema.columns kind,
    entry.1 ≠ "name" ∨ kind ≠ .player → isWord entry.2 := by
  cases kind <;> decide

/-- The column of a field is a word or the field itself; only the name of a player has
    none. -/
theorem column (naming : Naming ok) {kind : Entity} {field : String} (good : ok field)
    (plain : field ≠ "name" ∨ kind ≠ .player) : ok (Schema.column kind field) := by
  unfold Schema.column
  cases found : (Schema.columns kind).lookup field with
  | none => exact good
  | some name =>
    obtain ⟨before, later, split, _⟩ := List.lookup_eq_some_iff.mp found
    have entry : (field, name) ∈ Schema.columns kind := by simp [split]
    exact naming.word name (column_words kind _ entry plain)

theorem fieldTerm_names_of_found (naming : Naming ok) {r : Roster} {owner field : String}
    {t : Term α} (read : r.fieldTerm owner field = .ok t)
    (tied : ∀ b, r.find? owner = some b → ∀ n ∈ b.names, ok n) (own : ok owner)
    (good : ok field) : ∀ n ∈ t.names, ok n := by
  unfold Roster.fieldTerm at read
  split at read
  · cases read
  · rename_i b found
    cases kind : b.kind with
    | player =>
      simp only [kind] at read
      split at read
      · cases read
        simp [Term.names]
      · split at read
        · split at read <;> cases read
          · simpa [Term.names] using naming.join _ _ own (naming.word "_player" (by decide))
          · simpa [Term.names] using
              ⟨naming.statsAlias own, naming.column good (Or.inl ‹field ≠ "name"›)⟩
        · split at read <;> cases read
          · simpa [Term.names] using naming.word "players" (by decide)
          · simpa [Term.names] using ⟨naming.word Schema.statisticsTable (by decide),
              naming.column good (Or.inl ‹field ≠ "name"›)⟩
    | team =>
      simp only [kind] at read
      split at read <;> cases read
      · rename_i source related
        have behind := tied b (Roster.find?_of_lookup found) source
          (Binding.source_mem_names related)
        have shown : ok (if field = "name" then "playerteamName" else "playerteam" ++ field) := by
          split
          · exact naming.word "playerteamName" (by decide)
          · exact naming.join _ _ (naming.word "playerteam" (by decide)) good
        simpa [Term.names] using ⟨naming.statsAlias behind, shown⟩
      · simpa [Term.names] using ⟨naming.word Schema.gamesTable (by decide),
          naming.column good (Or.inr (by decide : Entity.team ≠ .player))⟩
    | opponent =>
      simp only [kind] at read
      split at read
      · split at read
        · cases read
          simpa [Term.names] using naming.statsAlias own
        · split at read <;> cases read
          · simpa [Term.names] using
              ⟨naming.statsAlias own, naming.word "playerteamName" (by decide)⟩
          · simpa [Term.names] using
              ⟨naming.statsAlias own, naming.column good (Or.inl ‹field ≠ "name"›)⟩
      · cases read
        simpa [Term.names] using ⟨naming.word Schema.gamesTable (by decide),
          naming.column good (Or.inr (by decide : Entity.opponent ≠ .player))⟩

theorem fieldTerm_names (naming : Naming ok) {r : Roster} {owner field : String} {t : Term α}
    (read : r.fieldTerm owner field = .ok t) (known : ∀ n ∈ r.names, ok n) (own : ok owner)
    (good : ok field) : ∀ n ∈ t.names, ok n :=
  naming.fieldTerm_names_of_found read
    (fun _ found n inside => known n (Roster.find?_names found n inside)) own good

theorem compareTerm_names (naming : Naming ok) {r : Roster} {left right : Expr} {op : Comparison}
    {leftTerm rightTerm : Term Value} (first : ∀ n ∈ leftTerm.names, ok n)
    (second : ∀ n ∈ rightTerm.names, ok n) (named : ∀ n ∈ left.names ++ right.names, ok n) :
    ∀ n ∈ (r.compareTerm left op right leftTerm rightTerm).names, ok n := by
  rcases r.compareTerm_cases left right op leftTerm rightTerm with
    ⟨a, b, rfl, rfl, _, _, _, same⟩ | ⟨owner, other, _, _, _, same⟩ | same
  · simp only [Expr.names, List.singleton_append, List.forall_mem_cons] at named
    have person := naming.word "personId" (by decide)
    have leftStats := naming.statsAlias named.1
    have rightStats := naming.statsAlias named.2.1
    rw [same]
    simp [Term.names, person, leftStats, rightStats]
  · rw [same]
    simp [Term.names]
  · rw [same]
    intro n member
    rcases List.mem_append.mp member with inLeft | inRight
    · split at inLeft <;> exact first n inLeft
    · exact second n inRight

theorem term_names_of_owners (naming : Naming ok) {r : Roster} {e : Expr} {t : Term Value}
    (read : r.term e = .ok t)
    (tied : ∀ owner ∈ e.owners, ∀ b, r.find? owner = some b → ∀ n ∈ b.names, ok n)
    (named : ∀ n ∈ e.names, ok n) : ∀ n ∈ t.names, ok n := by
  induction e generalizing t with
  | compare left op right leftIH rightIH =>
    unfold Roster.term at read
    split at read
    · split at read <;> cases read
      have days : ∀ n ∈ [Schema.gamesTable, "gameDate", Schema.gamesTable, "gameDate"], ok n :=
        naming.words (by decide)
      exact days
    · obtain ⟨leftTerm, first, afterFirst⟩ := Reading.bind_eq_ok read
      obtain ⟨rightTerm, second, finish⟩ := Reading.bind_eq_ok afterFirst
      cases finish
      have both := List.forall_mem_append.mp named
      have owners := List.forall_mem_append.mp tied
      exact naming.compareTerm_names (leftIH first owners.1 both.1)
        (rightIH second owners.2 both.2) named
  | field owner f =>
    have both : ok owner ∧ ok f := by simpa [Expr.names] using named
    exact naming.fieldTerm_names_of_found read (tied owner List.mem_cons_self) both.1 both.2
  | literal value kind =>
    cases read
    simp [Term.names]
  | name text =>
    cases read
    unfold Roster.nameTerm
    split
    · simpa [Term.names] using ⟨naming.word Schema.gamesTable (by decide),
        naming.word "gameDate" (by decide)⟩
    · simpa [Term.names, Expr.names] using named
  | aggregate f argument ih =>
    obtain ⟨inner, first, finish⟩ := Reading.bind_eq_ok read
    cases finish
    simpa only [Term.names] using ih first tied named

theorem term_names (naming : Naming ok) {r : Roster} (known : ∀ n ∈ r.names, ok n) {e : Expr}
    {t : Term Value} (read : r.term e = .ok t) (named : ∀ n ∈ e.names, ok n) :
    ∀ n ∈ t.names, ok n :=
  naming.term_names_of_owners read
    (fun _ _ _ found n inside => known n (Roster.find?_names found n inside)) named

theorem filters_names (naming : Naming ok) {r : Roster} (known : ∀ n ∈ r.names, ok n)
    {es : List Expr} {ts : List (Term Value)}
    (read : List.Forall₂ (fun e t => r.term e = .ok t) es ts)
    (named : ∀ n ∈ es.flatMap Expr.names, ok n) : ∀ t ∈ ts, ∀ n ∈ t.names, ok n := by
  induction read with
  | nil => simp
  | cons first rest ih =>
    rw [List.flatMap_cons, List.forall_mem_append] at named
    rw [List.forall_mem_cons]
    exact ⟨naming.term_names known first named.1, ih named.2⟩

theorem literalCondition_names (naming : Naming ok) {r : Roster} {b : Binding} {t : Term Value}
    (named : ∀ n ∈ b.names, ok n) (tied : r.literalCondition b = some t) :
    ∀ n ∈ t.names, ok n := by
  unfold Roster.literalCondition at tied
  split at tied <;> cases tied
  simpa [Term.names] using naming.stats r.aliasing (named b.name List.mem_cons_self)

theorem relationCondition_names (naming : Naming ok) {r : Roster} {b : Binding} {t : Term Value}
    (named : ∀ n ∈ b.names, ok n) (tied : r.relationCondition b = some t) :
    ∀ n ∈ t.names, ok n := by
  have own := named b.name List.mem_cons_self
  have team := naming.word "playerteamName" (by decide)
  unfold Roster.relationCondition at tied
  split at tied
  · cases tied
  · rename_i relation source found
    have other := named source (Binding.source_mem_names found)
    split at tied <;> cases tied
    · simpa [Term.names] using ⟨naming.statsAlias own, team, naming.statsAlias other, team⟩
    · simpa [Term.names] using ⟨naming.statsAlias own, team, naming.statsAlias other, team⟩
    · have games := naming.word Schema.gamesTable (by decide)
      have teamId := naming.word "teamId" (by decide)
      have home := naming.word "hometeamId" (by decide)
      have away := naming.word "awayteamId" (by decide)
      have joined := naming.teamAlias own
      simp [Term.names, joined, teamId, games, home, away]
    · simp [Term.names]

theorem players_names (r : Roster) : ∀ n ∈ r.players, n ∈ r.names := by
  intro n member
  obtain ⟨b, among, rfl⟩ := List.mem_map.mp member
  exact Roster.mem_names (List.mem_filter.mp among).1 _ List.mem_cons_self

theorem sameGameChain_names (naming : Naming ok) {r : Roster} (known : ∀ n ∈ r.names, ok n) :
    ∀ t ∈ (r.sameGameChain : List (Term α)), ∀ n ∈ t.names, ok n := by
  have player : ∀ n ∈ Names.sorted r.players, ok n := fun n member =>
    known n (players_names r n (Names.mem_sorted.mp member))
  intro t member
  obtain ⟨⟨a, b⟩, among, rfl⟩ := List.mem_map.mp member
  obtain ⟨first, second⟩ := List.of_mem_zip among
  have game := naming.word "gameId" (by decide)
  have left := naming.statsAlias (player a first)
  have right := naming.statsAlias (player b (List.mem_of_mem_tail second))
  simp [Roster.sameGame, Term.names, left, right, game]

theorem bindingConditions_names (naming : Naming ok) {r : Roster}
    (known : ∀ n ∈ r.names, ok n) : ∀ t ∈ r.bindingConditions, ∀ n ∈ t.names, ok n := by
  have entry : ∀ b ∈ r.entries, ∀ n ∈ b.names, ok n := fun b among n inside =>
    known n (Roster.mem_names among n inside)
  intro t member
  simp only [Roster.bindingConditions, List.mem_append, List.mem_filterMap, or_assoc] at member
  rcases member with ⟨b, among, tied⟩ | ⟨b, among, tied⟩ | chained
  · exact naming.literalCondition_names (entry b among) tied
  · exact naming.relationCondition_names (entry b among) tied
  · exact naming.sameGameChain_names known t chained

theorem sharedJoin_names (naming : Naming ok) (kind : Entity) :
    ∀ n ∈ (Schema.sharedJoin kind).names, ok n := by
  have words : ∀ n ∈ [Schema.gamesTable, Schema.statisticsTable, Schema.teamsTable, "gameId",
      "home_team", "hometeamId", "away_team", "awayteamId", "teamId"], ok n :=
    naming.words (by decide)
  simp only [List.forall_mem_cons] at words
  cases kind <;> simp [Schema.sharedJoin, Join.names, Term.names, words]

theorem joins_names (naming : Naming ok) {r : Roster} (known : ∀ n ∈ r.names, ok n) :
    ∀ j ∈ r.joins, ∀ n ∈ j.names, ok n := by
  have entry : ∀ b ∈ r.entries, ok b.name := fun b among =>
    known _ (Roster.mem_names among _ List.mem_cons_self)
  have games := naming.word Schema.gamesTable (by decide)
  intro j member
  unfold Roster.joins at member
  split at member
  · obtain ⟨kind, _, rfl⟩ := List.mem_map.mp member
    exact naming.sharedJoin_names kind
  · rcases List.mem_append.mp member with reads | joins
    · obtain ⟨b, among, rfl⟩ := List.mem_map.mp reads
      have joined := naming.statsAlias (entry b (List.mem_filter.mp among).1)
      have table := naming.word Schema.statisticsTable (by decide)
      have game := naming.word "gameId" (by decide)
      simp [Roster.statsJoin, Join.names, Term.names, table, joined, games, game]
    · obtain ⟨b, among, rfl⟩ := List.mem_map.mp joins
      have joined := naming.teamAlias (entry b (List.mem_filter.mp among).1)
      have table := naming.word Schema.teamsTable (by decide)
      have team := naming.word "teamId" (by decide)
      have home := naming.word "hometeamId" (by decide)
      have away := naming.word "awayteamId" (by decide)
      simp [Roster.teamJoin, Join.names, Term.names, table, joined, games, team, home, away]

theorem selectItem_names (naming : Naming ok) {field : String} (good : ok field) :
    ∀ n ∈ (Schema.selectItem field).names, ok n := by
  have words : ∀ n ∈ [Schema.gamesTable, Schema.statisticsTable, "gameDate", "date",
      "awayteamName", "opponent", "points", "reboundsTotal", "rebounds", "assists", "players",
      "name"], ok n := naming.words (by decide)
  simp only [List.forall_mem_cons] at words
  unfold Schema.selectItem
  split <;> simp_all [Item.names, Term.names]

theorem sortTerm_names (naming : Naming ok) {field : String} (good : ok field) :
    ∀ n ∈ (Schema.sortTerm field).names, ok n := by
  have words : ∀ n ∈ [Schema.statisticsTable, "points", "reboundsTotal", "assists",
      "numMinutes"], ok n := naming.words (by decide)
  simp only [List.forall_mem_cons] at words
  unfold Schema.sortTerm
  split <;> simp_all [Term.names]

theorem sides_names (naming : Naming ok) :
    ∀ i ∈ Projection.gameDate :: Projection.sides, ∀ n ∈ i.names, ok n := by
  have words : ∀ n ∈ [Schema.gamesTable, "gameDate", "game_date", "hometeamName", "home_team",
      "awayteamName", "away_team", "homeScore", "home_score", "awayScore", "away_score"], ok n :=
    naming.words (by decide)
  simp only [List.forall_mem_cons] at words
  simp [Projection.gameDate, Projection.sides, labelled_names, Term.names, words]

theorem headline_names (naming : Naming ok) {table : String} (good : ok table) :
    ∀ i ∈ Projection.headline table, ∀ n ∈ i.names, ok n := by
  have words : ∀ n ∈ [Schema.gamesTable, "player_name", "playerteamName", "team",
      "opponentteamName", "opponent", "win", "homeScore", "awayScore", "margin", "points",
      "reboundsTotal", "rebounds", "assists"], ok n := naming.words (by decide)
  simp only [List.forall_mem_cons] at words
  simp [Projection.headline, labelled_names, Term.names, words, good]

theorem curated_words : ∀ field ∈ Schema.curatedFields, isWord field ∧ field ≠ "name" := by
  decide

theorem curated_names (naming : Naming ok) {table : String} (good : ok table)
    (referenced : List String) : ∀ i ∈ Projection.curated table referenced, ∀ n ∈ i.names, ok n := by
  intro i member
  obtain ⟨field, among, rfl⟩ := List.mem_map.mp member
  obtain ⟨word, plain⟩ := curated_words field (List.mem_filter.mp among).1
  have shown := naming.word field word
  simpa [Item.names, Term.names] using ⟨shown, good, naming.column shown (Or.inl plain)⟩

theorem standard_names (naming : Naming ok) {r : Roster} (known : ∀ n ∈ r.names, ok n)
    (referenced : List String) : ∀ i ∈ Projection.standard r referenced, ∀ n ∈ i.names, ok n := by
  obtain ⟨date, sides⟩ := List.forall_mem_cons.mp naming.sides_names
  unfold Projection.standard
  split
  · exact naming.sides_names
  · rename_i first rest players
    have own : ok first := known first (players_names r first (by simp [players]))
    have table := naming.stats r.aliasing own
    rw [List.cons_append, List.forall_mem_cons, List.forall_mem_append]
    exact ⟨date, naming.headline_names table, naming.curated_names table referenced⟩

theorem averaged_words : ∀ entry ∈ Schema.averagedColumns, isWord entry.1 ∧ isWord entry.2 := by
  decide

theorem averages_names (naming : Naming ok) :
    ∀ i ∈ Projection.averages, ∀ n ∈ i.names, ok n := by
  have table := naming.word Schema.statisticsTable (by decide)
  have count := naming.word "games_count" (by decide)
  intro i member
  rcases List.mem_append.mp member with averaged | last
  · obtain ⟨entry, among, rfl⟩ := List.mem_map.mp averaged
    obtain ⟨column, shown⟩ := averaged_words entry among
    simpa [Item.names, Term.names] using ⟨naming.word _ shown, table, naming.word _ column⟩
  · rw [List.mem_singleton.mp last]
    simpa [Item.names, Term.names] using count

theorem select_names (naming : Naming ok) {r : Roster} (known : ∀ n ∈ r.names, ok n)
    (limit : Option UInt64) {q : Query} (asked : ∀ n ∈ q.names, ok n)
    (scope : q.scope = .games ∨ q.scope = .averageGames) {own : List (Term Value)}
    (terms : ∀ t ∈ own, ∀ n ∈ t.names, ok n) :
    ∀ n ∈ (Plan.select r limit q (r.bindingConditions ++ own)).names, ok n := by
  have source : ok (Schema.baseTable q.scope) := by
    rcases scope with same | same <;> rw [same] <;> exact naming.word Schema.gamesTable (by decide)
  have joins : ∀ n ∈ r.joins.flatMap Join.names, ok n :=
    List.forall_mem_flatMap.mpr (naming.joins_names known)
  have filters : ∀ n ∈ (r.bindingConditions ++ own).flatMap Term.names, ok n := by
    rw [List.forall_mem_flatMap, List.forall_mem_append]
    exact ⟨naming.bindingConditions_names known, terms⟩
  simp only [Query.names, List.forall_mem_append] at asked
  obtain ⟨⟨_, selected⟩, ordered⟩ := asked
  have order : ∀ n ∈ (q.order.map fun order => SortKey.mk (Schema.sortTerm order.field)
      order.ascending).toList.flatMap (·.term.names), ok n := by
    cases sorted : q.order with
    | none => simp
    | some order => simpa using naming.sortTerm_names (ordered order.field (by simp [sorted]))
  unfold Plan.select
  split
  · simp only [Select.names, Plan.averagesSelect, List.forall_mem_append, List.forall_mem_cons]
    have shown := List.forall_mem_flatMap.mpr naming.averages_names
    exact ⟨⟨⟨⟨source, shown⟩, joins⟩, filters⟩, by simp⟩
  · simp only [Select.names, Plan.gamesSelect, List.forall_mem_append, List.forall_mem_cons]
    refine ⟨⟨⟨⟨source, List.forall_mem_flatMap.mpr ?_⟩, joins⟩, filters⟩, order⟩
    split
    · rename_i s chosen
      intro i member
      obtain ⟨field, among, rfl⟩ := List.mem_map.mp member
      exact naming.selectItem_names (selected field (by simpa [chosen] using among))
    · exact naming.standard_names known q.referencedFields

end Naming

/-- The plan of a source is idle, or its text is that of a statement over good names. -/
theorem compile_names {ok : String → Prop} (naming : Naming ok) {settings : Settings}
    {source : String} {plan : Plan} (compiled : compile settings source = .ok plan) :
    (plan.sql = "" ∧ plan.parameters = []) ∨ ∃ s : Select Value,
      plan.sql = s.text ∧ plan.parameters = s.parameters ∧ ∀ n ∈ s.names, ok n := by
  obtain ⟨program, roster, parsed, entered, planned⟩ := compile_ok compiled
  have named : ∀ n ∈ program.names, ok n := fun n member =>
    naming.word n (parse_words parsed n member)
  have known : ∀ n ∈ roster.names, ok n := fun n member => named n (roster_names entered n member)
  cases query : program.query with
  | none =>
    rw [query] at planned
    cases planned
    exact Or.inl ⟨rfl, rfl⟩
  | some q =>
    rw [query] at planned
    obtain ⟨scope, own, read, rfl⟩ := ofQuery_ok planned
    have asked : ∀ n ∈ q.names, ok n := fun n member =>
      named n (by simp [Program.names, query, member])
    have filters : ∀ n ∈ q.filters.flatMap Expr.names, ok n := fun n member =>
      asked n (by simp only [Query.names, List.mem_append, member, true_or])
    exact Or.inr ⟨_, rfl, rfl, naming.select_names known _ asked scope
      (naming.filters_names known read filters)⟩

end BoxScore
