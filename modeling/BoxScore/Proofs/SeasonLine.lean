import BoxScore.Console.Report
import BoxScore.Proofs.Parameters
import BoxScore.Proofs.SeasonDays

/- The season that a report names and the season that its statement asks for. The report
   reads the source once more and passes over names that no season has; a plan has no
   such name, so that both take the first condition that asks for a season. -/
namespace BoxScore

open Season

namespace Expr

def season? (e : Expr) : Option Season := e.seasonValue?.bind fun value => ofName? value.text

theorem seasonValue?_eq_some_iff {e : Expr} {value : Value} :
    e.seasonValue? = some value ↔ ∃ kind, e = asked value kind := by
  constructor
  · intro found
    unfold seasonValue? at found
    split at found
    · cases found
      exact ⟨_, rfl⟩
    · cases found
  · rintro ⟨kind, rfl⟩
    rfl

theorem season?_eq_some {e : Expr} {s : Season} (found : e.season? = some s) :
    ∃ value kind, e = asked value kind ∧ ofName? value.text = some s := by
  obtain ⟨value, literal, named⟩ := Option.bind_eq_some_iff.mp found
  obtain ⟨kind, rfl⟩ := seasonValue?_eq_some_iff.mp literal
  exact ⟨value, kind, rfl, named⟩

theorem filterValues_asked {value : Value} {s : Season} (named : ofName? value.text = some s)
    (kind : LiteralKind) : (asked value kind).filterValues = s.days := by
  have literal : (asked value kind).seasonValue? = some value := rfl
  rw [filterValues, literal]
  simp [named]

end Expr

theorem Program.season?_of_query {p : Program} {q : Query} (query : p.query = some q) :
    p.season? = q.filters.findSome? Expr.season? := by
  rw [Program.season?, query]
  change q.filters.findSome? _ = _
  congr 1
  funext e
  cases e with
  | compare left op right =>
    rw [Expr.season?, ← Expr.seasonLiteral?_eq]
  | _ => rfl

def Query.SeasonsKnown (q : Query) : Prop :=
  ∀ value kind, asked value kind ∈ q.filters → ∃ s, ofName? value.text = some s

theorem seasonsKnown_of_planned {r : Roster} {limit : Option UInt64} {q : Query} {plan : Plan}
    (planned : Plan.ofQuery r limit q = .ok plan) : q.SeasonsKnown := by
  obtain ⟨_, own, read, _⟩ := ofQuery_ok planned
  intro value kind member
  exact Roster.filterTerms_seasons read _ member value rfl

namespace Query.SeasonsKnown

variable {q : Query}

theorem season?_isSome_iff (known : q.SeasonsKnown) :
    (q.filters.findSome? Expr.season?).isSome ↔ ∃ value kind, asked value kind ∈ q.filters := by
  rw [List.findSome?_isSome_iff]
  constructor
  · rintro ⟨e, member, found⟩
    obtain ⟨s, found⟩ := Option.isSome_iff_exists.mp found
    obtain ⟨value, kind, rfl, _⟩ := Expr.season?_eq_some found
    exact ⟨value, kind, member⟩
  · rintro ⟨value, kind, member⟩
    obtain ⟨s, named⟩ := known value kind member
    exact ⟨_, member, Option.isSome_iff_exists.mpr ⟨s, named⟩⟩

theorem first_asked (known : q.SeasonsKnown) {s : Season}
    (found : q.filters.findSome? Expr.season? = some s) :
    ∃ before value kind after, q.filters = before ++ asked value kind :: after ∧
      (∀ value kind, asked value kind ∉ before) ∧ ofName? value.text = some s := by
  obtain ⟨before, e, after, split, here, earlier⟩ := List.findSome?_eq_some_iff.mp found
  obtain ⟨value, kind, rfl, named⟩ := Expr.season?_eq_some here
  refine ⟨before, value, kind, after, split, ?_, named⟩
  intro other form member
  obtain ⟨t, alsoNamed⟩ := known other form (by rw [split]; exact List.mem_append_left _ member)
  have none := earlier _ member
  rw [show (asked other form).season? = some t from alsoNamed] at none
  cases none

end Query.SeasonsKnown

theorem parsed_parameters {source : String} {p : Program} {r : Roster} {limit : Option UInt64}
    {q : Query} {plan : Plan} (parsed : Program.parse source = .ok p)
    (entered : p.roster = .ok r) (query : p.query = some q)
    (planned : Plan.ofQuery r limit q = .ok plan) :
    plan.parameters = p.declarations.filterMap Declaration.playerValue? ++
      q.filters.flatMap Expr.filterValues := by
  rw [query_parameters entered planned]
  congr 1
  apply List.flatMap_congr
  intro e member
  obtain ⟨us, derived⟩ := parsed_filters parsed query e member
  exact expression_values derived

def Program.AsksSeason (p : Program) : Prop :=
  ∃ q, p.query = some q ∧ ∃ value kind, asked value kind ∈ q.filters

/-- The first condition that asks for a season asks for this one, and the plan has the two
    days for it: behind the names of the players and what the conditions before it bind. -/
def Program.BindsFirst (p : Program) (plan : Plan) (s : Season) : Prop :=
  ∃ q before value kind after, p.query = some q ∧
    q.filters = before ++ asked value kind :: after ∧
    (∀ value kind, asked value kind ∉ before) ∧ ofName? value.text = some s ∧
    plan.parameters =
      p.declarations.filterMap Declaration.playerValue? ++ before.flatMap Expr.filterValues ++
        [.string s.first.iso, .string s.last.iso] ++ after.flatMap Expr.filterValues

/-- A report of a source that compiles names a season exactly if a condition of its query
    asks for one, and then it is the season whose days the first such condition binds. -/
theorem season_line_matches_parameters {settings : Settings} {source : String} {plan : Plan}
    (compiled : compile settings source = .ok plan) :
    ∃ p, Program.parse source = .ok p ∧
      ((∃ s, Console.season? source = some s) ↔ p.AsksSeason) ∧
      ∀ s, Console.season? source = some s → p.BindsFirst plan s := by
  obtain ⟨p, r, parsed, entered, planned⟩ := compile_ok compiled
  have read : Console.season? source = p.season? := by rw [Console.season?, parsed]
  refine ⟨p, parsed, ?_⟩
  rw [read]
  cases query : p.query with
  | none => simp [Program.season?, Program.AsksSeason, query]
  | some q =>
    rw [query] at planned
    have known := seasonsKnown_of_planned planned
    rw [Program.season?_of_query query]
    constructor
    · rw [← Option.isSome_iff_exists, known.season?_isSome_iff]
      simp [Program.AsksSeason, query]
    · intro s found
      obtain ⟨before, value, kind, after, split, first, named⟩ := known.first_asked found
      refine ⟨q, before, value, kind, after, query, split, first, named, ?_⟩
      rw [parsed_parameters parsed entered query planned, split, List.flatMap_append,
        List.flatMap_cons, Expr.filterValues_asked named, Season.days]
      simp only [List.append_assoc]

def twoSeasons : String :=
  "Player p = Curry get games where 20 < p.points and season = \"2023-24\" " ++
    "and season = \"1995-96\""

theorem first_of_two_seasons_named :
    ∃ plan p, compile .standard twoSeasons = .ok plan ∧ Program.parse twoSeasons = .ok p ∧
      Console.season? twoSeasons = some ⟨"2023-24", ⟨2023, 10, 17⟩, ⟨2024, 6, 17⟩⟩ ∧
      p.BindsFirst plan ⟨"2023-24", ⟨2023, 10, 17⟩, ⟨2024, 6, 17⟩⟩ := by
  have found : Console.season? twoSeasons =
      some ⟨"2023-24", ⟨2023, 10, 17⟩, ⟨2024, 6, 17⟩⟩ := by
    decide +kernel
  have succeeds : (compile .standard twoSeasons).isOk := by decide +kernel
  cases compiled : compile .standard twoSeasons with
  | error fault =>
    rw [compiled] at succeeds
    cases succeeds
  | ok plan =>
    obtain ⟨p, parsed, _, binds⟩ := season_line_matches_parameters compiled
    exact ⟨plan, p, rfl, parsed, found, binds _ found⟩

end BoxScore
