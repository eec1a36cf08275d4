import BoxScore.Proofs.Planning

/- What keeps a query about games from being planned. Only its conditions can: a field of
   a variable that is not on the roster, or a season that is asked for and is none. The
   parts of the conditions are looked at from left to right, however deep they stand, and
   the first that offends is reported. -/
namespace BoxScore

open Sql

def Expr.parts : Expr → List Expr
  | .compare left op right => .compare left op right :: (left.parts ++ right.parts)
  | .aggregate f argument => .aggregate f argument :: argument.parts
  | .field owner f => [.field owner f]
  | .literal value kind => [.literal value kind]
  | .name text => [.name text]

def Query.parts (q : Query) : List Expr := q.filters.flatMap Expr.parts

/-- What is wrong with a part of a condition, whatever stands in it. -/
inductive Expr.Offends (r : Roster) : Expr → Fault → Prop where
  | undefined {owner f : String} (absent : ∀ b ∈ r.entries, b.name ≠ owner) :
      Offends r (.field owner f) (.undefinedVariable owner)
  | unknown {value : Value} {kind : LiteralKind} (other : ∀ s ∈ Season.all, s.name ≠ value.text) :
      Offends r (.compare (.name "season") .eq (.literal value kind)) (.unknownSeason value.text)

structure Query.Plannable (r : Roster) (q : Query) : Prop where
  defined : ∀ owner f, .field owner f ∈ q.parts → ∃ b ∈ r.entries, b.name = owner
  known : ∀ value kind, .compare (.name "season") .eq (.literal value kind) ∈ q.parts →
    ∃ s ∈ Season.all, s.name = value.text

def Query.FirstOffence (r : Roster) (q : Query) (fault : Fault) : Prop :=
  ∃ before e after, q.parts = before ++ e :: after ∧
    (∀ earlier ∈ before, ∀ other, ¬ earlier.Offends r other) ∧ e.Offends r fault

namespace Fault

variable {α β : Type}

def of? : Except Fault α → Option Fault
  | .error fault => some fault
  | .ok _ => none

theorem of?_eq_some {x : Except Fault α} {fault : Fault} :
    of? x = some fault ↔ x = .error fault := by
  cases x <;> simp [of?]

theorem of?_eq_none {x : Except Fault α} : of? x = none ↔ ∃ a, x = .ok a := by
  cases x <;> simp [of?]

theorem of?_bind {x : Except Fault α} {f : α → Except Fault β} {rest : Option Fault}
    (alike : ∀ a, of? (f a) = rest) : of? (x >>= f) = (of? x).or rest := by
  cases x with
  | error fault => rfl
  | ok a => exact alike a

end Fault

theorem Season.ofName?_eq_none_iff {name : String} :
    ofName? name = none ↔ ∀ s ∈ all, s.name ≠ name := by
  simp [ofName?]

namespace Roster

theorem find?_eq_none_iff {r : Roster} {name : String} :
    r.find? name = none ↔ ∀ b ∈ r.entries, b.name ≠ name := by
  simp [find?_eq]

def offence? (r : Roster) : Expr → Option Fault
  | .field owner _ => if (r.find? owner).isSome then none else some (.undefinedVariable owner)
  | .compare left op right =>
    match seasonLiteral? left op right with
    | some value =>
      if (Season.ofName? value.text).isSome then none else some (.unknownSeason value.text)
    | none => none
  | _ => none

theorem offence?_eq_some_iff {r : Roster} {e : Expr} {fault : Fault} :
    r.offence? e = some fault ↔ e.Offends r fault := by
  constructor
  · intro found
    cases e with
    | field owner f =>
      rw [offence?] at found
      split at found
      · cases found
      · rename_i none
        cases found
        exact .undefined (find?_eq_none_iff.mp (by simpa using none))
    | compare left op right =>
      rw [offence?] at found
      split at found
      · rename_i value asked
        obtain ⟨rfl, rfl, kind, rfl⟩ := seasonLiteral?_eq_some asked
        split at found
        · cases found
        · rename_i none
          cases found
          exact .unknown (Season.ofName?_eq_none_iff.mp (by simpa using none))
      · cases found
    | _ => cases found
  · intro offends
    cases offends with
    | undefined absent => simp [offence?, find?_eq_none_iff.mpr absent]
    | unknown other => simp [offence?, seasonLiteral?, Season.ofName?_eq_none_iff.mpr other]

theorem offence?_eq_none_iff {r : Roster} {e : Expr} :
    r.offence? e = none ↔ ∀ fault, ¬ e.Offends r fault := by
  rw [Option.eq_none_iff_forall_ne_some]
  exact forall_congr' fun fault => not_congr offence?_eq_some_iff

/- The first offence among the parts is the fault of the run, one lemma for each step. -/

theorem fieldTerm_fault (r : Roster) (owner f : String) :
    Fault.of? (r.fieldTerm owner f : Except Fault (Term Value)) = r.offence? (.field owner f) := by
  cases found : r.find? owner with
  | none => simp [fieldTerm, lookup, found, offence?, Fault.of?]
  | some b =>
    obtain ⟨t, read⟩ := fieldTerm_of_find? found f
    simp [read, offence?, found, Fault.of?]

theorem term_fault (r : Roster) (e : Expr) :
    Fault.of? (r.term e) = e.parts.findSome? r.offence? := by
  induction e with
  | compare left op right leftIH rightIH =>
    rw [term, Expr.parts, List.findSome?_cons, offence?]
    cases asked : seasonLiteral? left op right with
    | some value =>
      -- A season is a word and a literal, and neither of them can offend.
      obtain ⟨rfl, rfl, kind, rfl⟩ := seasonLiteral?_eq_some asked
      simp only
      cases Season.ofName? value.text <;> rfl
    | none =>
      simp only
      rw [List.findSome?_append, ← leftIH, ← rightIH]
      apply Fault.of?_bind
      intro leftTerm
      cases r.term right <;> rfl
  | field owner f =>
    rw [term, fieldTerm_fault, Expr.parts, List.findSome?_singleton]
  | literal value kind => rfl
  | name text => rfl
  | aggregate f argument ih =>
    rw [term, Expr.parts, List.findSome?_cons, ← ih]
    cases r.term argument <;> rfl

theorem filterTerms_fault (r : Roster) (es : List Expr) :
    Fault.of? (r.filterTerms es) = (es.flatMap Expr.parts).findSome? r.offence? := by
  induction es with
  | nil => rfl
  | cons e es ih =>
    rw [filterTerms, List.flatMap_cons, List.findSome?_append, ← r.term_fault, ← ih]
    apply Fault.of?_bind
    intro t
    cases r.filterTerms es <;> rfl

theorem conditions_fault (r : Roster) (es : List Expr) :
    Fault.of? (r.conditions es) = (es.flatMap Expr.parts).findSome? r.offence? := by
  rw [← filterTerms_fault, conditions]
  cases r.filterTerms es <;> rfl

end Roster

theorem ofQuery_fault (r : Roster) (limit : Option UInt64) {q : Query}
    (scope : q.scope = .games ∨ q.scope = .averageGames) :
    Fault.of? (Plan.ofQuery r limit q) = q.parts.findSome? r.offence? := by
  rw [Query.parts, ← r.conditions_fault]
  rcases scope with games | averages
  · simp only [Plan.ofQuery, games]
    cases r.conditions q.filters <;> rfl
  · simp only [Plan.ofQuery, averages]
    cases r.conditions q.filters <;> rfl

theorem firstOffence_iff {r : Roster} {q : Query} {fault : Fault} :
    q.parts.findSome? r.offence? = some fault ↔ q.FirstOffence r fault := by
  rw [List.findSome?_eq_some_iff, Query.FirstOffence]
  constructor
  · rintro ⟨before, e, after, split, offends, innocent⟩
    exact ⟨before, e, after, split, fun earlier member =>
      Roster.offence?_eq_none_iff.mp (innocent earlier member), Roster.offence?_eq_some_iff.mp offends⟩
  · rintro ⟨before, e, after, split, innocent, offends⟩
    exact ⟨before, e, after, split, Roster.offence?_eq_some_iff.mpr offends, fun earlier member =>
      Roster.offence?_eq_none_iff.mpr (innocent earlier member)⟩

theorem plannable_iff {r : Roster} {q : Query} :
    q.parts.findSome? r.offence? = none ↔ q.Plannable r := by
  rw [List.findSome?_eq_none_iff]
  constructor
  · intro innocent
    constructor
    · intro owner f member
      by_contra absent
      exact Roster.offence?_eq_none_iff.mp (innocent _ member) _ (.undefined (by simpa using absent))
    · intro value kind member
      by_contra other
      exact Roster.offence?_eq_none_iff.mp (innocent _ member) _ (.unknown (by simpa using other))
  · rintro ⟨defined, known⟩ e member
    refine Roster.offence?_eq_none_iff.mpr fun fault offends => ?_
    cases offends with
    | undefined absent =>
      obtain ⟨b, entry, name⟩ := defined _ _ member
      exact absent b entry name
    | unknown other =>
      obtain ⟨s, among, name⟩ := known _ _ member
      exact other s among name

/-- A query about games or their averages is planned if no part of its conditions offends,
    and else the first part that does is reported. What the query says on columns, order
    and rows decides nothing, nor does the default limit. -/
theorem planning_fails_at_first_offence (r : Roster) (limit : Option UInt64) {p : Program}
    {q : Query} (asked : p.query = some q)
    (scope : q.scope = .games ∨ q.scope = .averageGames) :
    ((∃ plan, Plan.ofQuery? r limit p.query = .ok plan) ↔ q.Plannable r) ∧
    (∀ fault, Plan.ofQuery? r limit p.query = .error fault ↔ q.FirstOffence r fault) ∧
    ∀ other selection order rows fault,
      Plan.ofQuery? r other
        (some { q with selection := selection, order := order, limit := rows }) = .error fault ↔
      Plan.ofQuery? r limit p.query = .error fault := by
  rw [asked]
  refine ⟨?_, ?_, ?_⟩
  · rw [← plannable_iff, ← ofQuery_fault r limit scope, Fault.of?_eq_none]
    rfl
  · intro fault
    rw [← firstOffence_iff, ← ofQuery_fault r limit scope, Fault.of?_eq_some]
    rfl
  · intro other selection order rows fault
    have changed := ofQuery_fault r other
      (q := { q with selection := selection, order := order, limit := rows }) scope
    rw [← Fault.of?_eq_some, ← Fault.of?_eq_some, Plan.ofQuery?, Plan.ofQuery?, changed,
      ofQuery_fault r limit scope]
    rfl

def sharedGames : Query where
  scope := .averageGames
  filters :=
    [.compare (.field "p" "points") .gt (.literal (.int 5) .number),
     .compare (.field "p" "played") .eq (.field "z" "played"),
     .compare (.aggregate .max (.compare (.name "season") .eq
       (.literal (.string "1980-81") .string))) .ne (.field "p" "team")]
  selection := none
  order := some ⟨"points", false⟩
  limit := none

/-- The variable `z` is missed although two fields `played` are not compared at all. -/
theorem sharedGames_refused :
    sharedGames.FirstOffence (.ofBindings [⟨"p", .player, .unbound⟩]) (.undefinedVariable "z") := by
  have failed : Plan.ofQuery? (.ofBindings [⟨"p", .player, .unbound⟩]) (some 10) (some sharedGames) =
      .error (.undefinedVariable "z") := by
    decide +kernel
  have decided := planning_fails_at_first_offence (.ofBindings [⟨"p", .player, .unbound⟩]) (some 10)
    (p := ⟨[], some sharedGames⟩) rfl (Or.inr rfl)
  exact (decided.2.1 _).mp failed

end BoxScore
