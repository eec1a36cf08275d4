import BoxScore.Proofs.MovedFilters
import BoxScore.Proofs.SameGame
import BoxScore.Proofs.WellDeclared

/- How the conditions of a statement are laid out. Players that are declared with a literal
   come first and take the first numbers. Behind them stands what the relations demand, then
   the chain of games, and last the conditions of the query, each numbered on from what is
   bound before it. -/
namespace BoxScore

open Sql

def Program.namedPlayers (p : Program) : List (String × Value) :=
  p.declarations.filterMap fun d => d.playerValue?.map fun value => (d.name, value)

def nameText (table : String) (number : Nat) : String :=
  "TRIM(" ++ table ++ ".firstName || ' ' || " ++ table ++ ".lastName) = ?" ++ toString number

def nameTexts (mode : Aliasing) (first : Nat) (named : List (String × Value)) : List String :=
  (named.zipIdx first).map fun player => nameText (mode.stats player.1.1) player.2

namespace Declaration

def isDemanding (d : Declaration) : Bool :=
  match d.initial with
  | some (.field _ relation) => relation != "played"
  | _ => false

/-- What the relation of a declaration demands. The teams of two persons differ; a team
    that is an opponent is on one of the two sides; the team of a player is left to the
    fields that are read from it. -/
inductive Demands : Declaration → String → Prop where
  | otherTeam {kind : Entity} (name source : String) (person : kind ≠ .team) :
      Demands ⟨kind, name, some (.field source "opponent")⟩
        ("(" ++ name ++ "_stats.playerteamName != " ++ source ++ "_stats.playerteamName)")
  | eitherSide (name source : String) :
      Demands ⟨.team, name, some (.field source "opponent")⟩
        ("(" ++ name ++ "_team.teamId = games.hometeamId OR " ++ name ++
          "_team.teamId = games.awayteamId)")
  | ownTeam (name source : String) : Demands ⟨.team, name, some (.field source "team")⟩ "1=1"

end Declaration

namespace Sql

variable {α : Type}

theorem texts_of_bare {ts : List (Term α)} (bare : ∀ t ∈ ts, t.values = []) (bound : Nat) :
    texts bound ts = ts.map fun t => (t.numbered bound).text Term.placeholder := by
  induction ts with
  | nil => rfl
  | cons t ts ih =>
    rw [List.forall_mem_cons] at bare
    have rest := ih bare.2
    rw [texts] at rest ⊢
    rw [numbered, bare.1, List.length_nil, Nat.add_zero, List.map_cons, rest, List.map_cons]

theorem named_text (table : String) (value : Value) (bound : Nat) :
    ((Term.compare (.fullName table) .eq (.parameter value)).numbered bound).text
      Term.placeholder = nameText table (bound + 1) := by
  apply String.toList_injective
  simp [nameText, Term.numbered, Term.text, Term.values, Comparison.symbol, Term.placeholder]

theorem texts_names (mode : Aliasing) (named : List (String × Value)) (bound : Nat) :
    texts bound (named.map fun player =>
        Term.compare (.fullName (mode.stats player.1)) .eq (.parameter player.2)) =
      nameTexts mode (bound + 1) named := by
  induction named generalizing bound with
  | nil => rfl
  | cons player named ih =>
    have rest := ih (bound + 1)
    rw [nameTexts, texts] at rest ⊢
    rw [List.map_cons, numbered, List.map_cons, named_text, List.zipIdx_cons, List.map_cons]
    exact congrArg (nameText (mode.stats player.1) (bound + 1) :: ·) rest

end Sql

theorem forall₂_filter_filterMap {α β : Type} {related : α → β → Prop} {kept : α → Bool}
    {result : α → Option β} {entries : List α}
    (decided : ∀ a ∈ entries, (kept a = false ∧ result a = none) ∨
      ∃ b, kept a ∧ result a = some b ∧ related a b) :
    List.Forall₂ related (entries.filter kept) (entries.filterMap result) := by
  induction entries with
  | nil => exact .nil
  | cons a entries ih =>
    rw [List.forall_mem_cons] at decided
    have rest := ih decided.2
    rcases decided.1 with ⟨dropped, none⟩ | ⟨b, keep, found, holds⟩
    · rw [List.filterMap_cons_none none]
      simpa [dropped] using rest
    · rw [List.filterMap_cons_some found, List.filter_cons_of_pos keep]
      exact .cons holds rest

theorem relation_entered {p : Program} {r : Roster} (entered : p.roster = .ok r)
    {d : Declaration} (declared : d ∈ p.declarations) {source field : String}
    (initial : d.initial = some (.field source field)) :
    ∃ relation : Relation, relation.spelling = field ∧
      (relation, Entity.player, d.kind) ∈ Relation.compatible ∧
      (r.find? source).map Binding.kind = some .player := by
  have well := (roster_entered_iff p).mp ⟨r, entered⟩
  obtain ⟨before, after, split⟩ := List.append_of_mem declared
  obtain ⟨s, earlier, rfl, relation, spelled, compatible⟩ :=
    well.tied before d after source field split initial
  have player : s.kind = .player := by
    simp only [Relation.compatible] at compatible
    grind
  have found := Roster.find?_declared entered (d := s) (by simp [split, earlier])
  rw [player] at compatible
  exact ⟨relation, spelled, compatible, by rw [found]; exact congrArg some player⟩

theorem otherTeam_text (name source : String) (bound : Nat) :
    ((Term.group (.compare (.column (statsAlias name) "playerteamName") .ne
      (.column (statsAlias source) "playerteamName")) : Term Value).numbered bound).text
        Term.placeholder =
      "(" ++ name ++ "_stats.playerteamName != " ++ source ++ "_stats.playerteamName)" := by
  apply String.toList_injective
  simp [Term.numbered, Term.text, Comparison.symbol, statsAlias]

theorem eitherSide_text (name : String) (bound : Nat) :
    ((Term.group (.either
      (.compare (.column (teamAlias name) "teamId") .eq (.column Schema.gamesTable "hometeamId"))
      (.compare (.column (teamAlias name) "teamId") .eq
        (.column Schema.gamesTable "awayteamId"))) : Term Value).numbered bound).text
        Term.placeholder =
      "(" ++ name ++ "_team.teamId = games.hometeamId OR " ++ name ++
        "_team.teamId = games.awayteamId)" := by
  apply String.toList_injective
  simp [Term.numbered, Term.text, Comparison.symbol, teamAlias, Schema.gamesTable]

theorem relationCondition_decides {p : Program} {r : Roster} (entered : p.roster = .ok r)
    {d : Declaration} (declared : d ∈ p.declarations) (bound : Nat) :
    (d.isDemanding = false ∧ r.relationCondition d.binding = none) ∨
      ∃ t, d.isDemanding ∧ r.relationCondition d.binding = some t ∧
        d.Demands ((t.numbered bound).text Term.placeholder) := by
  obtain ⟨kind, name, initial⟩ := d
  match initial with
  | some (.field source field) =>
    obtain ⟨relation, rfl, compatible, player⟩ := relation_entered entered declared rfl
    have tied : (Declaration.mk kind name
        (some (.field source relation.spelling))).binding.relation? = some (relation, source) := by
      simp [Declaration.binding, relation.ofSpelling?_spelling, Binding.relation?]
    simp only [Relation.compatible, List.mem_cons, Prod.mk.injEq, List.not_mem_nil, or_false]
      at compatible
    simp only [Roster.relationCondition, tied, player]
    rcases compatible with ⟨rfl, -, rfl⟩ | ⟨rfl, -, rfl⟩ | ⟨rfl, -, rfl⟩ | ⟨rfl, -, rfl⟩ |
      ⟨rfl, -, rfl⟩
    · refine Or.inr ⟨_, rfl, rfl, ?_⟩
      rw [otherTeam_text]
      exact .otherTeam name source (by decide)
    · refine Or.inr ⟨_, rfl, rfl, ?_⟩
      rw [eitherSide_text]
      exact .eitherSide name source
    · refine Or.inr ⟨_, rfl, rfl, ?_⟩
      rw [otherTeam_text]
      exact .otherTeam name source (by decide)
    · exact Or.inr ⟨.always, rfl, rfl, .ownTeam name source⟩
    · exact Or.inl ⟨rfl, rfl⟩
  | none | some (.literal ..) | some (.compare ..) | some (.name _) | some (.aggregate ..) =>
    exact Or.inl ⟨rfl, rfl⟩

namespace Roster

theorem literalConditions_named {p : Program} {r : Roster} (entered : p.roster = .ok r) :
    r.entries.filterMap r.literalCondition = p.namedPlayers.map fun player =>
      .compare (.fullName (r.aliasing.stats player.1)) .eq (.parameter player.2) := by
  rw [roster_ok entered, List.filterMap_map, Program.namedPlayers, List.map_filterMap]
  apply List.filterMap_congr
  intro d _
  rw [Function.comp_apply, literalCondition_binding, Option.map_map]
  rfl

theorem texts_sameGameChain (r : Roster) (bound : Nat) :
    texts bound (r.sameGameChain : List (Term Value)) =
      (Names.sorted r.players).zipWith
        (fun a b => a ++ "_stats.gameId = " ++ b ++ "_stats.gameId")
        (Names.sorted r.players).tail := by
  have each : ∀ a b, ((sameGame a b : Term Value).numbered bound).text Term.placeholder =
      a ++ "_stats.gameId = " ++ b ++ "_stats.gameId" := sameGame_text Term.placeholder
  rw [texts_of_bare r.sameGameChain_bare]
  simp only [sameGameChain, List.zip_eq_zipWith, List.map_zipWith, each]

theorem texts_relations {p : Program} {r : Roster} (entered : p.roster = .ok r) (bound : Nat) :
    List.Forall₂ Declaration.Demands (p.declarations.filter Declaration.isDemanding)
      (texts bound (r.entries.filterMap r.relationCondition)) := by
  rw [texts_of_bare r.relationConditions_bare, List.forall₂_map_right_iff, roster_ok entered,
    List.filterMap_map]
  apply forall₂_filter_filterMap
  intro d declared
  exact relationCondition_decides entered declared bound

end Roster

/-- The conditions of a program that is entered stand in four blocks. The players with a
    literal have the first numbers, in the order in which they are declared; each relation
    but `played` has one condition, the players one chain, and each condition of the query
    its own text. Nothing else is written or bound. -/
theorem conditions_laid_out {p : Program} {r : Roster} (entered : p.roster = .ok r) :
    ∃ ties, List.Forall₂ Declaration.Demands (p.declarations.filter Declaration.isDemanding) ties ∧
      ∀ filters written last, (Draft.start r).conditions filters = .ok (written, last) ↔
        ∃ own, Draft.Writes ⟨r, p.namedPlayers.map Prod.snd⟩ filters own last ∧
          written = nameTexts r.aliasing 1 p.namedPlayers ++ ties ++
            (Names.sorted r.players).zipWith
              (fun a b => a ++ "_stats.gameId = " ++ b ++ "_stats.gameId")
              (Names.sorted r.players).tail ++ own := by
  have bound : values r.bindingConditions = p.namedPlayers.map Prod.snd := by
    rw [Roster.bindingConditions_values entered, Program.namedPlayers, List.map_filterMap]
    simp [Function.comp_def]
  refine ⟨_, Roster.texts_relations entered
    (values (r.entries.filterMap r.literalCondition)).length, fun filters written last => ?_⟩
  rw [Draft.conditions_ok_iff, Draft.start, List.nil_append, bound, Roster.bindingConditions,
    texts_append, texts_append, Roster.texts_sameGameChain, List.length_nil, Nat.zero_add]
  nth_rewrite 1 [Roster.literalConditions_named entered]
  rw [texts_names]

def mixedDeclarations : Program where
  declarations :=
    [⟨.player, "p", some (.literal (.string "Curry") .canonicalName)⟩,
     ⟨.team, "h", some (.literal (.string "Heat") .canonicalName)⟩,
     ⟨.opponent, "o", some (.field "p" "opponent")⟩,
     ⟨.team, "u", some (.field "p" "opponent")⟩,
     ⟨.player, "c", some (.field "p" "played")⟩,
     ⟨.team, "t", some (.field "p" "team")⟩,
     ⟨.opponent, "n", some (.literal (.string "Nuggets") .canonicalName)⟩,
     ⟨.player, "b", some (.literal (.string "James") .canonicalName)⟩]
  query := none

def scoringOpponent : List Expr :=
  [.compare (.field "o" "points") .gt (.literal (.int 20) .number)]

def mixedTexts : List String :=
  ["TRIM(p_stats.firstName || ' ' || p_stats.lastName) = ?1",
   "TRIM(b_stats.firstName || ' ' || b_stats.lastName) = ?2",
   "(o_stats.playerteamName != p_stats.playerteamName)",
   "(u_team.teamId = games.hometeamId OR u_team.teamId = games.awayteamId)", "1=1",
   "b_stats.gameId = c_stats.gameId", "c_stats.gameId = p_stats.gameId",
   "CAST(o_stats.points AS REAL) > ?3"]

/-- A later player with a literal stands before the relations, and the literals of the team
    and of the opponent are not there. -/
theorem mixedDeclarations_laid_out : ∃ r, mixedDeclarations.roster = .ok r ∧
    ∃ ties own last,
      List.Forall₂ Declaration.Demands
        (mixedDeclarations.declarations.filter Declaration.isDemanding) ties ∧
      Draft.Writes ⟨r, [.string "Curry", .string "James"]⟩ scoringOpponent own last ∧
      mixedTexts =
        nameTexts r.aliasing 1 [("p", .string "Curry"), ("b", .string "James")] ++ ties ++
          (Names.sorted r.players).zipWith
            (fun a b => a ++ "_stats.gameId = " ++ b ++ "_stats.gameId")
            (Names.sorted r.players).tail ++ own := by
  have texts : (mixedDeclarations.roster.bind fun r => (Draft.start r).conditions
      scoringOpponent).map Prod.fst = .ok mixedTexts := by
    decide +kernel
  cases entered : mixedDeclarations.roster with
  | error fault =>
    rw [entered] at texts
    cases texts
  | ok r =>
    rw [entered] at texts
    obtain ⟨ties, demanded, layout⟩ := conditions_laid_out entered
    cases done : (Draft.start r).conditions scoringOpponent with
    | error fault =>
      rw [Except.bind, done] at texts
      cases texts
    | ok result =>
      obtain ⟨written, last⟩ := result
      rw [Except.bind, done] at texts
      obtain ⟨own, writes, split⟩ := (layout _ written last).mp done
      refine ⟨r, rfl, ties, own, last, demanded, writes, ?_⟩
      rw [← Except.ok.inj texts]
      exact split

end BoxScore
