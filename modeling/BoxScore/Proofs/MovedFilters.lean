import BoxScore.Plan.Draft
import BoxScore.Proofs.Parameters
import BoxScore.Proofs.Renumbering
import Mathlib.Data.List.Perm.Basic

/- Where a condition stands does not change what it asks for. Behind any number of
   parameters it reads the same term and binds the same values, and only the numbers of its
   placeholders move; so the conditions of a query can be put into any order. -/
namespace BoxScore

open Sql

namespace Sql

variable {α : Type}

theorem texts_append (bound : Nat) (ts us : List (Term α)) :
    texts bound (ts ++ us) = texts bound ts ++ texts (bound + (values ts).length) us := by
  induction ts generalizing bound with
  | nil => rfl
  | cons t ts ih =>
    have onward := ih (bound + t.values.length)
    simp only [texts, values, Nat.add_assoc] at onward
    simp only [texts, values, List.cons_append, numbered, List.map_cons, onward,
      List.flatMap_cons, List.length_append]

theorem texts_length (bound : Nat) (ts : List (Term α)) :
    (texts bound ts).length = ts.length := by
  induction ts generalizing bound with
  | nil => rfl
  | cons t ts ih =>
    simpa [texts, numbered] using ih (bound + t.values.length)

theorem texts_getElem? (bound : Nat) (ts : List (Term α)) (i : Nat) :
    (texts bound ts)[i]? = ts[i]?.map fun t =>
      (t.numbered (bound + (values (ts.take i)).length)).text Term.placeholder := by
  induction ts generalizing bound i with
  | nil => rfl
  | cons t ts ih =>
    cases i with
    | zero => rfl
    | succ i =>
      have onward := ih (bound + t.values.length) i
      simp only [values, Nat.add_assoc] at onward
      simpa only [texts, values, numbered, List.map_cons, List.getElem?_cons_succ,
        List.take_succ_cons, List.flatMap_cons, List.length_append] using onward

end Sql

def Roster.namesOf (r : Roster) (e : Expr) : List String :=
  e.names ++ (e.owners.filterMap r.find?).flatMap Binding.names

theorem Roster.namesOf_clear {r : Roster} {e : Expr} {t : Term Value} (read : r.term e = .ok t)
    (clear : ∀ n ∈ r.namesOf e, '?' ∉ n.toList) : ∀ n ∈ t.names, '?' ∉ n.toList := by
  obtain ⟨own, tied⟩ := List.forall_mem_append.mp clear
  refine naming_clear.term_names_of_owners read ?_ own
  intro owner member b found n inside
  have entry := List.mem_filterMap.mpr ⟨owner, member, found⟩
  exact tied n (List.mem_flatMap.mpr ⟨b, entry, inside⟩)

/-- Two texts of one expression, the first behind `j` parameters and the second behind `k`.
    They are one term but for its numbers; where no name has a question mark, the second
    is the first with each placeholder rewritten. -/
structure Moved (r : Roster) (e : Expr) (j k : Nat) (first second : String) : Prop where
  shifted : ∃ t : Term Nat, t.values = List.range' (j + 1) e.values.length ∧
    first = t.text Term.placeholder ∧ second = (t.map (· + k - j)).text Term.placeholder
  rewritten : (∀ n ∈ r.namesOf e, '?' ∉ n.toList) →
    second.toList = renumbered (· + k - j) first.toList

theorem moved_of_term {r : Roster} {e : Expr} {t : Term Value} (read : r.term e = .ok t)
    (j k : Nat) : Moved r e j k ((t.numbered j).text Term.placeholder)
      ((t.numbered k).text Term.placeholder) := by
  have moved : (t.numbered j).map (· + k - j) = t.numbered k := t.numbered_moved j k 0
  constructor
  · refine ⟨t.numbered j, ?_, rfl, by rw [moved]⟩
    rw [Term.values_numbered, Roster.term_values read]
  · intro clear
    have names : ∀ n ∈ (t.numbered j).names, '?' ∉ n.toList := by
      rw [Term.names_numbered]
      exact Roster.namesOf_clear read clear
    rw [Term.renumbered_text _ names, moved]

theorem bind_pure_eq_error_iff {α β : Type} {x : Except Fault α} {f : α → β} {fault : Fault} :
    (x >>= fun a => pure (f a)) = .error fault ↔ x = .error fault := by
  cases x <;> simp [bind, Except.bind, pure, Except.pure]

theorem Roster.filterTerms_error_iff {r : Roster} {es : List Expr} {fault : Fault} :
    r.filterTerms es = .error fault ↔ ∃ before e after ts, es = before ++ e :: after ∧
      List.Forall₂ (fun e t => r.term e = .ok t) before ts ∧ r.term e = .error fault := by
  constructor
  · intro refused
    induction es with
    | nil => cases refused
    | cons e es ih =>
      rw [filterTerms] at refused
      cases read : r.term e with
      | error other =>
        rw [read] at refused
        cases refused
        exact ⟨[], e, es, [], rfl, .nil, read⟩
      | ok t =>
        rw [read] at refused
        obtain ⟨before, f, after, ts, rfl, front, last⟩ := ih (bind_pure_eq_error_iff.mp refused)
        exact ⟨e :: before, f, after, t :: ts, rfl, .cons read front, last⟩
  · rintro ⟨before, e, after, ts, rfl, read, refused⟩
    induction read with
    | nil =>
      rw [List.nil_append, filterTerms, refused]
      rfl
    | cons first rest ih =>
      rw [List.cons_append, filterTerms, first, ih]
      rfl

namespace Draft

theorem expression_of_term {r : Roster} {e : Expr} {t : Term Value} (read : r.term e = .ok t)
    (bound : List Value) : (Draft.mk r bound).expression e =
      .ok ((t.numbered bound.length).text Term.placeholder, ⟨r, bound ++ e.values⟩) := by
  rw [expression, read, ← Roster.term_values read]
  rfl

theorem expression_error_iff {d : Draft} {e : Expr} {fault : Fault} :
    d.expression e = .error fault ↔ d.roster.term e = .error fault :=
  bind_pure_eq_error_iff

theorem conditions_of_terms {r : Roster} {es : List Expr} {own : List (Term Value)}
    (read : List.Forall₂ (fun e t => r.term e = .ok t) es own) (bound : List Value) :
    (Draft.mk r bound).conditions es =
      .ok (texts bound.length r.bindingConditions ++
          texts (bound.length + (values r.bindingConditions).length) own,
        ⟨r, bound ++ (values r.bindingConditions ++ es.flatMap Expr.values)⟩) := by
  have joined : values (r.bindingConditions ++ own) =
      values r.bindingConditions ++ es.flatMap Expr.values := by
    rw [← Roster.filterTerms_values read]
    exact List.flatMap_append
  rw [← texts_append, ← joined, conditions, Roster.conditions, Roster.filterTerms_of_terms read]
  rfl

theorem conditions_terms {d last : Draft} {es : List Expr} {written : List String}
    (done : d.conditions es = .ok (written, last)) :
    ∃ own, List.Forall₂ (fun e t => d.roster.term e = .ok t) es own := by
  obtain ⟨ts, read, _⟩ := Reading.bind_eq_ok done
  obtain ⟨own, terms, _⟩ := Roster.conditions_ok read
  exact ⟨own, terms⟩

inductive Writes : Draft → List Expr → List String → Draft → Prop where
  | nil (d : Draft) : Writes d [] [] d
  | cons {d next last : Draft} {e : Expr} {es : List Expr} {text : String} {texts : List String}
      (first : d.expression e = .ok (text, next)) (rest : Writes next es texts last) :
      Writes d (e :: es) (text :: texts) last

theorem expression_ok {d next : Draft} {e : Expr} {text : String}
    (written : d.expression e = .ok (text, next)) :
    ∃ t, d.roster.term e = .ok t ∧ text = (t.numbered d.bound.length).text Term.placeholder ∧
      next = ⟨d.roster, d.bound ++ t.values⟩ := by
  obtain ⟨t, read, finish⟩ := Reading.bind_eq_ok written
  cases finish
  exact ⟨t, read, rfl, rfl⟩

theorem writes_iff (d last : Draft) (es : List Expr) (own : List String) :
    d.Writes es own last ↔ ∃ ts, List.Forall₂ (fun e t => d.roster.term e = .ok t) es ts ∧
      own = texts d.bound.length ts ∧ last = ⟨d.roster, d.bound ++ values ts⟩ := by
  constructor
  · intro written
    induction written with
    | nil d => exact ⟨[], .nil, rfl, by simp [values]⟩
    | cons first rest ih =>
      obtain ⟨t, read, rfl, rfl⟩ := expression_ok first
      obtain ⟨ts, more, rfl, rfl⟩ := ih
      refine ⟨t :: ts, .cons read more, ?_, ?_⟩
      · simp [texts, numbered]
      · simp [values]
  · obtain ⟨r, bound⟩ := d
    rintro ⟨ts, read, rfl, rfl⟩
    dsimp only at read
    induction read generalizing bound with
    | nil => simpa [values, texts, numbered] using Writes.nil ⟨r, bound⟩
    | @cons e t es ts term rest ih =>
      have onward := ih (bound ++ t.values)
      have first := expression_of_term term bound
      rw [← Roster.term_values term] at first
      simp only [texts, List.length_append, List.append_assoc] at onward
      simpa [texts, numbered, values] using Writes.cons first onward

/-- The conditions that a draft writes are those of its roster, and behind them each
    expression of the query. -/
theorem conditions_ok_iff (d last : Draft) (es : List Expr) (written : List String) :
    d.conditions es = .ok (written, last) ↔ ∃ own,
      Writes ⟨d.roster, d.bound ++ values d.roster.bindingConditions⟩ es own last ∧
        written = texts d.bound.length d.roster.bindingConditions ++ own := by
  obtain ⟨r, bound⟩ := d
  constructor
  · intro done
    obtain ⟨ts, read⟩ := conditions_terms done
    rw [conditions_of_terms read, ← Roster.filterTerms_values read] at done
    cases done
    refine ⟨_, (writes_iff _ _ _ _).mpr ⟨ts, read, rfl, ?_⟩, ?_⟩
    · simp
    · simp
  · rintro ⟨own, writes, rfl⟩
    obtain ⟨ts, read, rfl, rfl⟩ := (writes_iff _ _ _ _).mp writes
    rw [conditions_of_terms read, Roster.filterTerms_values read]
    simp

theorem conditions_error_iff (d : Draft) (es : List Expr) (fault : Fault) :
    d.conditions es = .error fault ↔ ∃ before e after own next, es = before ++ e :: after ∧
      Writes ⟨d.roster, d.bound ++ values d.roster.bindingConditions⟩ before own next ∧
        next.expression e = .error fault := by
  have refused_iff : d.conditions es = .error fault ↔ d.roster.filterTerms es = .error fault :=
    bind_pure_eq_error_iff.trans bind_pure_eq_error_iff
  rw [refused_iff, Roster.filterTerms_error_iff]
  constructor
  · rintro ⟨before, e, after, ts, split, read, refused⟩
    exact ⟨before, e, after, _, _, split, (writes_iff _ _ _ _).mpr ⟨ts, read, rfl, rfl⟩,
      expression_error_iff.mpr refused⟩
  · rintro ⟨before, e, after, own, next, split, writes, refused⟩
    obtain ⟨ts, read, rfl, rfl⟩ := (writes_iff _ _ _ _).mp writes
    have unread := expression_error_iff.mp refused
    exact ⟨before, e, after, ts, split, read, unread⟩

end Draft

/-- Texts of the same conditions in two orders. Wherever one condition stands in both, its
    texts differ by what is bound before it. -/
structure Rearranged (r : Roster) (start : Nat) (es fs : List Expr)
    (own other : List String) : Prop where
  length : own.length = es.length
  length_other : other.length = fs.length
  moved : ∀ i j e, es[i]? = some e → fs[j]? = some e → ∃ first second,
    own[i]? = some first ∧ other[j]? = some second ∧
      Moved r e (start + ((es.take i).flatMap Expr.values).length)
        (start + ((fs.take j).flatMap Expr.values).length) first second

theorem Roster.term_at {r : Roster} {es : List Expr} {own : List (Term Value)}
    (read : List.Forall₂ (fun e t => r.term e = .ok t) es own) {i : Nat} {e : Expr}
    (stands : es[i]? = some e) : ∃ t, own[i]? = some t ∧ r.term e = .ok t := by
  induction read generalizing i with
  | nil => simp at stands
  | cons first rest ih =>
    cases i with
    | zero =>
      cases stands
      exact ⟨_, rfl, first⟩
    | succ i => exact ih stands

theorem filter_text {r : Roster} {es : List Expr} {own : List (Term Value)}
    (read : List.Forall₂ (fun e t => r.term e = .ok t) es own) (start : Nat) {i : Nat} {e : Expr}
    {t : Term Value} (term : r.term e = .ok t) (stands : es[i]? = some e) :
    (texts start own)[i]? = some ((t.numbered
      (start + ((es.take i).flatMap Expr.values).length)).text Term.placeholder) := by
  have before := Roster.filterTerms_values (List.forall₂_take i read)
  obtain ⟨u, here, same⟩ := Roster.term_at read stands
  cases term.symm.trans same
  rw [texts_getElem?, here, before]
  rfl

theorem rearranged_of_terms {r : Roster} {es fs : List Expr} {own other : List (Term Value)}
    (read : List.Forall₂ (fun e t => r.term e = .ok t) es own)
    (readOther : List.Forall₂ (fun e t => r.term e = .ok t) fs other) (start : Nat) :
    Rearranged r start es fs (texts start own) (texts start other) := by
  refine ⟨?_, ?_, ?_⟩
  · rw [texts_length, read.length_eq]
  · rw [texts_length, readOther.length_eq]
  · intro i j e stands standsOther
    obtain ⟨t, _, term⟩ := Roster.term_at read stands
    exact ⟨_, _, filter_text read start term stands, filter_text readOther start term standsOther,
      moved_of_term term _ _⟩

/-- Conditions are compiled alike wherever they stand. One expression is refused behind any
    two lists of values for the same reason, or is written behind both with its numbers
    moved and binds the same values. Conditions that can be written can be written in any
    order, the texts of the roster before them unchanged. -/
theorem filters_written_anywhere (r : Roster) :
    (∀ e first second,
      (∃ fault, (Draft.mk r first).expression e = .error fault ∧
        (Draft.mk r second).expression e = .error fault) ∨
      ∃ a b, (Draft.mk r first).expression e = .ok (a, ⟨r, first ++ e.values⟩) ∧
        (Draft.mk r second).expression e = .ok (b, ⟨r, second ++ e.values⟩) ∧
        Moved r e first.length second.length a b) ∧
    ∀ bound es fs written last, es.Perm fs →
      (Draft.mk r bound).conditions es = .ok (written, last) →
      ∃ own other, written = texts bound.length r.bindingConditions ++ own ∧
        last = ⟨r, bound ++ (values r.bindingConditions ++ es.flatMap Expr.values)⟩ ∧
        (Draft.mk r bound).conditions fs =
          .ok (texts bound.length r.bindingConditions ++ other,
            ⟨r, bound ++ (values r.bindingConditions ++ fs.flatMap Expr.values)⟩) ∧
        Rearranged r (bound.length + (values r.bindingConditions).length) es fs own other := by
  constructor
  · intro e first second
    cases read : r.term e with
    | error fault =>
      exact Or.inl ⟨fault, Draft.expression_error_iff.mpr read,
        Draft.expression_error_iff.mpr read⟩
    | ok t =>
      exact Or.inr ⟨_, _, Draft.expression_of_term read first,
        Draft.expression_of_term read second, moved_of_term read _ _⟩
  · intro bound es fs written last order done
    obtain ⟨own, read⟩ := Draft.conditions_terms done
    obtain ⟨other, readOther, _⟩ := List.perm_comp_forall₂ order.symm read
    rw [Draft.conditions_of_terms read] at done
    cases done
    exact ⟨_, _, rfl, rfl, Draft.conditions_of_terms readOther bound,
      rearranged_of_terms read readOther _⟩

def seasonAndPoints : List Expr :=
  [.compare (.name "season") .eq (.literal (.string "2023-24") .string),
    .compare (.literal (.int 20) .number) .lt (.name "points")]

/-- Behind eight values one placeholder of the season has a single digit; with the points
    before it, none has. -/
theorem season_moved_past_points :
    (Draft.mk Roster.empty (List.replicate 8 (.int 0))).conditions seasonAndPoints =
      .ok (["games.gameDate >= ?9 AND games.gameDate <= ?10", "?11 < points"],
        ⟨Roster.empty, List.replicate 8 (.int 0) ++
          [.string "2023-10-17", .string "2024-06-17", .int 20]⟩) ∧
    ∃ e, seasonAndPoints.head? = some e ∧
      Moved Roster.empty e 8 9 "games.gameDate >= ?9 AND games.gameDate <= ?10"
        "games.gameDate >= ?10 AND games.gameDate <= ?11" := by
  have before : (Draft.mk Roster.empty (List.replicate 8 (.int 0))).conditions seasonAndPoints =
      .ok (["games.gameDate >= ?9 AND games.gameDate <= ?10", "?11 < points"],
        ⟨Roster.empty, List.replicate 8 (.int 0) ++
          [.string "2023-10-17", .string "2024-06-17", .int 20]⟩) := by
    decide +kernel
  have behind : ((Draft.mk Roster.empty (List.replicate 8 (.int 0))).conditions
      seasonAndPoints.reverse).map Prod.fst =
      .ok ["?9 < points", "games.gameDate >= ?10 AND games.gameDate <= ?11"] := by
    decide +kernel
  obtain ⟨own, other, split, _, again, arranged⟩ := (filters_written_anywhere Roster.empty).2
    _ _ _ _ _ (List.reverse_perm seasonAndPoints).symm before
  rw [again] at behind
  obtain ⟨first, second, here, there, moved⟩ := arranged.moved 0 1 _ rfl rfl
  cases split
  cases behind
  cases here
  cases there
  exact ⟨before, _, rfl, moved⟩

end BoxScore
