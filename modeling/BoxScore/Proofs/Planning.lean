import BoxScore.Compiler
import Mathlib.Data.List.Forall2

/- What a success of each step from the text of a program to its plan means. The lemmas
   say all that the step fixes, so that nothing behind them opens a definition again. -/
namespace BoxScore

open Sql Reading

def Declaration.binding (d : Declaration) : Binding :=
  ⟨d.name, d.kind, match d.initial with
    | some (.literal value _) => .literal value
    | some (.field owner name) =>
      match Relation.ofSpelling? name with
      | some relation => .related relation owner
      | none => .unbound
    | _ => .unbound⟩

namespace Roster

theorem ext_entries {r s : Roster} (same : r.entries = s.entries) : r = s := by
  obtain ⟨entries, slots, distinct, rfl⟩ := r
  obtain ⟨others, slots, distinctToo, rfl⟩ := s
  cases same
  rfl

theorem find?_of_lookup {r : Roster} {name : String} {b : Binding}
    (found : r.lookup name = .ok b) : r.find? name = some b := by
  unfold lookup at found
  split at found
  · cases found
    assumption
  · cases found

theorem target_ok {r : Roster} {d : Declaration} {tied : Target}
    (found : r.target d.kind d.initial = .ok tied) : d.binding.target = tied := by
  obtain ⟨kind, name, initial⟩ := d
  match initial with
  | some (.field owner f) =>
    unfold target at found
    simp only at found
    split at found
    · cases found
    · split at found
      · cases found
      · rename_i relation known
        split at found
        · cases found
          simp [Declaration.binding, known]
        · cases found
  | none | some (.literal ..) | some (.compare ..) | some (.name _) | some (.aggregate ..) =>
    cases found
    rfl

theorem declare_ok {r longer : Roster} {d : Declaration} {b : Binding}
    (entered : r.declare d = .ok (b, longer)) :
    r.contains d.name = false ∧ b = d.binding ∧ longer.entries = r.entries ++ [b] := by
  rw [declare_eq] at entered
  split at entered
  · cases entered
  · rename_i new
    obtain ⟨tied, found, finish⟩ := bind_eq_ok entered
    cases finish
    have absent : r.contains d.name = false := by simpa using new
    refine ⟨absent, ?_, by simp [insert_entries, slot?_of_not_contains absent]⟩
    rw [← target_ok found]
    rfl

theorem declareAll_ok {r last : Roster} {ds : List Declaration}
    (entered : r.declareAll ds = .ok last) :
    last.entries = r.entries ++ ds.map Declaration.binding := by
  induction ds generalizing r with
  | nil =>
    cases entered
    simp
  | cons d ds ih =>
    obtain ⟨⟨b, longer⟩, first, more⟩ := bind_eq_ok entered
    obtain ⟨_, rfl, entries⟩ := declare_ok first
    rw [ih more, entries]
    simp

theorem find?_of_fieldTerm {r : Roster} {owner field : String} {t : Term Value}
    (read : r.fieldTerm owner field = .ok t) : ∃ b, r.find? owner = some b := by
  unfold fieldTerm at read
  split at read
  · cases read
  · rename_i b lookup
    exact ⟨b, find?_of_lookup lookup⟩

theorem fieldTerm_of_find? {r : Roster} {owner : String} {b : Binding}
    (found : r.find? owner = some b) (field : String) :
    ∃ t : Term Value, r.fieldTerm owner field = .ok t := by
  simp only [fieldTerm, lookup, found]
  repeat' split
  all_goals exact ⟨_, rfl⟩

theorem compareTerm_cases (r : Roster) (left right : Expr) (op : Comparison)
    (leftTerm rightTerm : Term Value) :
    (∃ a b, left = .name a ∧ right = .name b ∧ op.isEquality ∧ r.isPlayer a ∧ r.isPlayer b ∧
      r.compareTerm left op right leftTerm rightTerm =
        .compare (.column (statsAlias a) "personId") op (.column (statsAlias b) "personId")) ∨
    (∃ owner other, left = .field owner "played" ∧ right = .field other "played" ∧
      op.isEquality ∧ r.compareTerm left op right leftTerm rightTerm = .always) ∨
    r.compareTerm left op right leftTerm rightTerm =
      .compare (if r.readsStat left then .cast leftTerm .real else leftTerm) op rightTerm := by
  unfold compareTerm
  simp only
  split
  · rename_i equality
    split
    · rename_i a b
      split
      · rename_i players
        rw [Bool.and_eq_true] at players
        exact Or.inl ⟨a, b, rfl, rfl, equality, players.1, players.2, rfl⟩
      · exact Or.inr (Or.inr rfl)
    · rename_i owner f other g
      split
      · rename_i played
        simp only [Bool.and_eq_true, decide_eq_true_eq] at played
        obtain ⟨rfl, rfl⟩ := played
        exact Or.inr (Or.inl ⟨owner, other, rfl, rfl, equality, rfl⟩)
      · exact Or.inr (Or.inr rfl)
    · exact Or.inr (Or.inr rfl)
  · exact Or.inr (Or.inr rfl)

theorem seasonLiteral?_eq_some {left right : Expr} {op : Comparison} {value : Value}
    (asked : seasonLiteral? left op right = some value) :
    left = .name "season" ∧ op = .eq ∧ ∃ kind, right = .literal value kind := by
  unfold seasonLiteral? at asked
  split at asked
  · cases asked
    exact ⟨rfl, rfl, _, rfl⟩
  · cases asked

/-- Comparisons that do not put one side behind the other: those that ask for a season,
    those of two players, and those of two fields `played`. -/
inductive Special (r : Roster) : Expr → Comparison → Expr → Prop where
  | season (value : Value) (kind : LiteralKind) :
      Special r (.name "season") .eq (.literal value kind)
  | players {a b : String} {op : Comparison} (equality : op.isEquality) (first : r.isPlayer a)
      (second : r.isPlayer b) : Special r (.name a) op (.name b)
  | played {op : Comparison} (equality : op.isEquality) (owner other : String) :
      Special r (.field owner "played") op (.field other "played")

theorem Special.equality {r : Roster} {left right : Expr} {op : Comparison}
    (special : r.Special left op right) : op.isEquality := by
  cases special with
  | season => rfl
  | players equality => exact equality
  | played equality => exact equality

/-- All other comparisons put what is read of their sides side by side, the left one cast if
    it is read as a number. -/
theorem term_compare_plain {r : Roster} {left right : Expr} {op : Comparison}
    (plain : ¬ r.Special left op right) {leftTerm rightTerm : Term Value}
    (first : r.term left = .ok leftTerm) (second : r.term right = .ok rightTerm) :
    r.term (.compare left op right) = .ok (.compare
      (if r.readsStat left then .cast leftTerm .real else leftTerm) op rightTerm) := by
  have season : seasonLiteral? left op right = none := by
    rw [Option.eq_none_iff_forall_ne_some]
    intro value asked
    obtain ⟨rfl, rfl, kind, rfl⟩ := seasonLiteral?_eq_some asked
    exact plain (.season value kind)
  have plainly : r.compareTerm left op right leftTerm rightTerm = .compare
      (if r.readsStat left then .cast leftTerm .real else leftTerm) op rightTerm := by
    rcases r.compareTerm_cases left right op leftTerm rightTerm with
      ⟨a, b, rfl, rfl, equality, player, other, _⟩ | ⟨a, b, rfl, rfl, equality, _⟩ | same
    · exact absurd (.players equality player other) plain
    · exact absurd (.played equality a b) plain
    · exact same
  rw [term, season, first, second, ← plainly]
  rfl

theorem filterTerms_ok {r : Roster} {es : List Expr} {ts : List (Term Value)}
    (read : r.filterTerms es = .ok ts) : List.Forall₂ (fun e t => r.term e = .ok t) es ts := by
  induction es generalizing ts with
  | nil =>
    cases read
    exact .nil
  | cons e es ih =>
    obtain ⟨t, first, afterFirst⟩ := bind_eq_ok read
    obtain ⟨us, more, finish⟩ := bind_eq_ok afterFirst
    cases finish
    exact .cons first (ih more)

theorem filterTerms_of_terms {r : Roster} {es : List Expr} {ts : List (Term Value)}
    (read : List.Forall₂ (fun e t => r.term e = .ok t) es ts) : r.filterTerms es = .ok ts := by
  induction read with
  | nil => rfl
  | cons first rest ih =>
    rw [filterTerms, first, ih]
    rfl

theorem conditions_ok {r : Roster} {es : List Expr} {ts : List (Term Value)}
    (read : r.conditions es = .ok ts) :
    ∃ own, List.Forall₂ (fun e t => r.term e = .ok t) es own ∧ ts = r.bindingConditions ++ own := by
  obtain ⟨own, terms, appended⟩ := bind_eq_ok read
  cases appended
  exact ⟨own, filterTerms_ok terms, rfl⟩

end Roster

theorem roster_ok {p : Program} {r : Roster} (entered : p.roster = .ok r) :
    r.entries = p.declarations.map Declaration.binding := by
  simpa [Roster.empty] using Roster.declareAll_ok entered

def Plan.select (r : Roster) (defaultLimit : Option UInt64) (q : Query)
    (filters : List (Term Value)) : Select Value :=
  if q.scope = .averageGames then averagesSelect r q filters
  else gamesSelect r defaultLimit q filters

theorem ofQuery_ok {r : Roster} {limit : Option UInt64} {q : Query} {plan : Plan}
    (planned : Plan.ofQuery r limit q = .ok plan) :
    (q.scope = .games ∨ q.scope = .averageGames) ∧ ∃ own,
      List.Forall₂ (fun e t => r.term e = .ok t) q.filters own ∧
      plan = Plan.ofSelect r q (Plan.select r limit q (r.bindingConditions ++ own)) := by
  unfold Plan.ofQuery at planned
  split at planned
  · rename_i scope
    obtain ⟨filters, read, finish⟩ := bind_eq_ok planned
    obtain ⟨own, terms, rfl⟩ := Roster.conditions_ok read
    cases finish
    exact ⟨Or.inl scope, own, terms, by simp [Plan.select, scope]⟩
  · rename_i scope
    obtain ⟨filters, read, finish⟩ := bind_eq_ok planned
    obtain ⟨own, terms, rfl⟩ := Roster.conditions_ok read
    cases finish
    exact ⟨Or.inr scope, own, terms, by simp [Plan.select, scope]⟩
  · cases planned

theorem ofQuery_of_terms {r : Roster} {q : Query} {own : List (Term Value)}
    (scope : q.scope = .games ∨ q.scope = .averageGames)
    (read : List.Forall₂ (fun e t => r.term e = .ok t) q.filters own) (limit : Option UInt64) :
    Plan.ofQuery r limit q =
      .ok (Plan.ofSelect r q (Plan.select r limit q (r.bindingConditions ++ own))) := by
  have conditions : r.conditions q.filters = .ok (r.bindingConditions ++ own) := by
    rw [Roster.conditions, Roster.filterTerms_of_terms read]
    rfl
  rcases scope with games | averages
  · simp only [Plan.ofQuery, games, conditions, Plan.select]
    rfl
  · simp only [Plan.ofQuery, averages, conditions, Plan.select]
    rfl

theorem compile_ok {settings : Settings} {source : String} {plan : Plan}
    (compiled : compile settings source = .ok plan) :
    ∃ program roster, Program.parse source = .ok program ∧ program.roster = .ok roster ∧
      Plan.ofQuery? roster settings.defaultLimit program.query = .ok plan := by
  unfold compile at compiled
  split at compiled
  · cases compiled
  · obtain ⟨program, parsed, afterParsed⟩ := bind_eq_ok compiled
    obtain ⟨roster, entered, planned⟩ := bind_eq_ok afterParsed
    exact ⟨program, roster, parsed, entered, planned⟩

end BoxScore
