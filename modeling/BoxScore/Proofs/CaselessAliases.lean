import BoxScore.Proofs.ConditionLayout
import BoxScore.Proofs.JoinedTables

/- The names of joined tables as a store compares them. A name without quotes is the same
   identifier in capitals and in small letters, and the names of variables tell these
   apart. So two variables of one table can have one identifier, and only they can: the
   endings of the names keep the tables apart. -/
namespace BoxScore

open Sql

/-- What a store takes a name for: its letters, all of them small. -/
def Sql.folded (name : String) : List Char := name.toList.map Char.toLower

def Declaration.IsFreeTeam (d : Declaration) : Prop :=
  d.kind = .team ∧ ∀ owner relation, d.initial ≠ some (.field owner relation)

def Declaration.SameTable (d e : Declaration) : Prop :=
  (d.kind ≠ .team ∧ e.kind ≠ .team) ∨ (d.IsFreeTeam ∧ e.IsFreeTeam)

def Sql.Apart (names : List String) : Prop :=
  ∀ a ∈ names, ∀ b ∈ names, folded a = folded b → a = b

theorem folded_append (a b : String) : folded (a ++ b) = folded a ++ folded b := by
  simp [folded]

theorem folded_statsAlias_inj {a b : String} :
    folded (statsAlias a) = folded (statsAlias b) ↔ folded a = folded b := by
  rw [statsAlias, statsAlias, folded_append, folded_append, List.append_left_inj]

theorem folded_teamAlias_inj {a b : String} :
    folded (teamAlias a) = folded (teamAlias b) ↔ folded a = folded b := by
  rw [teamAlias, teamAlias, folded_append, folded_append, List.append_left_inj]

theorem folded_statsAlias_ne (a b : String) : folded (statsAlias a) ≠ folded (teamAlias b) := by
  intro same
  have last := congrArg List.getLast? same
  rw [statsAlias, teamAlias, folded_append, folded_append] at last
  simp [folded] at last

theorem nodup_folded_iff {names : List String} (distinct : names.Nodup) {ended : String → String}
    (injective : ∀ {a b}, folded (ended a) = folded (ended b) ↔ folded a = folded b) :
    ((names.map ended).map folded).Nodup ↔ Apart names := by
  rw [List.map_map, List.nodup_map_iff_inj_on distinct]
  simp only [Function.comp_apply, injective, Apart]

namespace Roster

theorem sharedJoins_folded_distinct (r : Roster) :
    ((r.sharedJoins.map Join.name).map folded).Nodup := by
  have all : ((([.player, .team, .opponent].map Schema.sharedJoin).map Join.name).map
    folded).Nodup := by decide
  exact all.sublist (((List.filter_sublist.map _).map _).map _)

theorem variableJoins_folded_distinct_iff (r : Roster) :
    ((r.variableJoins.map Join.name).map folded).Nodup ↔
      Apart ((r.entries.filter readsStats).map Binding.name) ∧
        Apart ((r.entries.filter joinsTeam).map Binding.name) := by
  rw [variableJoins_names, List.map_append, List.nodup_append,
    nodup_folded_iff (r.filtered_names_distinct readsStats) folded_statsAlias_inj,
    nodup_folded_iff (r.filtered_names_distinct joinsTeam) folded_teamAlias_inj]
  constructor
  · rintro ⟨stats, teams, _⟩
    exact ⟨stats, teams⟩
  · rintro ⟨stats, teams⟩
    refine ⟨stats, teams, ?_⟩
    intro one first other second
    obtain ⟨_, among, rfl⟩ := List.mem_map.mp first
    obtain ⟨_, amongTeams, rfl⟩ := List.mem_map.mp second
    obtain ⟨a, _, rfl⟩ := List.mem_map.mp among
    obtain ⟨b, _, rfl⟩ := List.mem_map.mp amongTeams
    exact folded_statsAlias_ne a b

theorem joinsTeam_binding_iff {p : Program} {r : Roster} (entered : p.roster = .ok r)
    {d : Declaration} (declared : d ∈ p.declarations) : joinsTeam d.binding ↔ d.IsFreeTeam := by
  obtain ⟨kind, name, initial⟩ := d
  match initial with
  | some (.field source field) =>
    obtain ⟨relation, rfl, compatible, _⟩ := relation_entered entered declared rfl
    have tied : (Declaration.mk kind name
        (some (.field source relation.spelling))).binding.relation? = some (relation, source) := by
      simp [Declaration.binding, relation.ofSpelling?_spelling, Binding.relation?]
    simp only [Relation.compatible, List.mem_cons, Prod.mk.injEq, List.not_mem_nil, or_false]
      at compatible
    rw [joinsTeam, Binding.isRelatedBy, Binding.isRelatedBy, tied]
    rcases compatible with ⟨rfl, -, rfl⟩ | ⟨rfl, -, rfl⟩ | ⟨rfl, -, rfl⟩ | ⟨rfl, -, rfl⟩ |
      ⟨rfl, -, rfl⟩ <;> simp [Declaration.IsFreeTeam, Declaration.binding]
  | none | some (.literal ..) | some (.compare ..) | some (.name _) | some (.aggregate ..) =>
    simp [joinsTeam, Declaration.IsFreeTeam, Declaration.binding, Binding.isRelatedBy,
      Binding.relation?]

theorem apart_iff {p : Program} {r : Roster} (entered : p.roster = .ok r) (kept : Binding → Bool)
    (among : Declaration → Prop) (decided : ∀ d ∈ p.declarations, kept d.binding ↔ among d) :
    Apart ((r.entries.filter kept).map Binding.name) ↔
      ∀ d ∈ p.declarations, ∀ e ∈ p.declarations, among d ∧ among e →
        folded d.name = folded e.name → d.name = e.name := by
  rw [roster_ok entered]
  constructor
  · intro apart d first e second both
    have member : ∀ c ∈ p.declarations, among c →
        c.name ∈ ((p.declarations.map Declaration.binding).filter kept).map Binding.name := by
      intro c declared belongs
      have keep := (decided c declared).mpr belongs
      exact List.mem_map.mpr
        ⟨c.binding, List.mem_filter.mpr ⟨List.mem_map_of_mem declared, keep⟩, rfl⟩
    exact apart _ (member d first both.1) _ (member e second both.2)
  · intro apart a first b second
    have declared : ∀ name, name ∈ ((p.declarations.map Declaration.binding).filter kept).map
        Binding.name → ∃ c ∈ p.declarations, among c ∧ c.name = name := by
      intro name member
      obtain ⟨entry, keep, rfl⟩ := List.mem_map.mp member
      obtain ⟨written, keep⟩ := List.mem_filter.mp keep
      obtain ⟨c, declared, rfl⟩ := List.mem_map.mp written
      exact ⟨c, declared, (decided c declared).mp keep, rfl⟩
    obtain ⟨d, one, belongs, rfl⟩ := declared a first
    obtain ⟨e, other, alsoBelongs, rfl⟩ := declared b second
    exact apart d one e other ⟨belongs, alsoBelongs⟩

end Roster

/-- The joined tables of a program that is entered have identifiers of their own exactly if
    the variables share their joins, or if no two variables of one table have names that
    differ in capitals only. -/
theorem caseless_aliases_distinct_iff {p : Program} {r : Roster} (entered : p.roster = .ok r) :
    (r.joins.map fun j => folded j.name).Nodup ↔ r.aliasing = .shared ∨
      ∀ d ∈ p.declarations, ∀ e ∈ p.declarations, d.SameTable e →
        folded d.name = folded e.name → d.name = e.name := by
  have stats := Roster.apart_iff entered Roster.readsStats (·.kind ≠ .team)
    fun _ _ => Roster.readsStats_iff
  have teams := Roster.apart_iff entered Roster.joinsTeam Declaration.IsFreeTeam
    fun _ declared => Roster.joinsTeam_binding_iff entered declared
  have names : (r.joins.map fun j => folded j.name) = (r.joins.map Join.name).map folded := by
    rw [List.map_map]
    rfl
  rw [names, Roster.joins]
  cases mode : r.aliasing with
  | shared => simpa using r.sharedJoins_folded_distinct
  | perVariable =>
    simp only [r.variableJoins_folded_distinct_iff, stats, teams, Declaration.SameTable,
      reduceCtorEq, false_or]
    constructor
    · rintro ⟨ofStats, ofTeams⟩ d first e second (both | both)
      · exact ofStats d first e second both
      · exact ofTeams d first e second both
    · intro all
      exact ⟨fun d first e second both => all d first e second (Or.inl both),
        fun d first e second both => all d first e second (Or.inr both)⟩

def playerAndTeam : Program where
  declarations := [⟨.player, "pa", none⟩, ⟨.player, "q", none⟩, ⟨.team, "pA", none⟩]
  query := none

theorem playerAndTeam_distinct : ∃ r, playerAndTeam.roster = .ok r ∧
    r.joins.map Join.name = ["pa_stats", "q_stats", "pA_team"] ∧
    (r.joins.map fun j => folded j.name).Nodup := by
  have names : playerAndTeam.roster.map (·.joins.map Join.name) =
      .ok ["pa_stats", "q_stats", "pA_team"] := by
    decide +kernel
  cases entered : playerAndTeam.roster with
  | error fault =>
    rw [entered] at names
    cases names
  | ok r =>
    rw [entered] at names
    refine ⟨r, rfl, Except.ok.inj names, (caseless_aliases_distinct_iff entered).mpr (Or.inr ?_)⟩
    simp [playerAndTeam, Declaration.SameTable, Declaration.IsFreeTeam, folded]

theorem capital_makes_no_alias :
    ∃ p r, Program.parse "Player pa Player pA get games" = .ok p ∧ p.roster = .ok r ∧
      r.joins.map Join.name = ["pa_stats", "pA_stats"] ∧
      ¬ (r.joins.map fun j => folded j.name).Nodup := by
  have names : ((Program.parse "Player pa Player pA get games").bind Program.roster).map
      (·.joins.map Join.name) = .ok ["pa_stats", "pA_stats"] := by
    decide +kernel
  cases parsed : Program.parse "Player pa Player pA get games" with
  | error fault =>
    rw [parsed] at names
    cases names
  | ok p =>
    rw [parsed] at names
    cases entered : p.roster with
    | error fault => simp [Except.bind, Except.map, entered] at names
    | ok r =>
      have joined : r.joins.map Join.name = ["pa_stats", "pA_stats"] := by
        simpa [Except.bind, Except.map, entered] using names
      have same : (r.joins.map fun j => folded j.name) =
          ["pa_stats", "pA_stats"].map folded := by
        rw [← joined, List.map_map]
        rfl
      refine ⟨p, r, rfl, entered, joined, ?_⟩
      rw [same]
      decide

end BoxScore
