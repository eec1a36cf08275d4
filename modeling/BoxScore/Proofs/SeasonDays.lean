import BoxScore.Plan.Draft
import BoxScore.Proofs.Planning
import BoxScore.Proofs.SortedNames
import Mathlib.Order.Basic

/- Days and the seasons that hold them. A statement compares days as texts and the seasons
   compare them as days, and both come to the same while years have at most four digits:
   number by number a day is written with as many characters as any other. No two seasons
   have a day in common, so that the first season found for a day is the only one. -/
namespace BoxScore

open Sql

namespace Date

def lastDigits : Nat → Nat → List Char
  | 0, _ => []
  | width + 1, n => lastDigits width (n / 10) ++ [Nat.digitChar (n % 10)]

theorem length_lastDigits (width n : Nat) : (lastDigits width n).length = width := by
  induction width generalizing n with
  | zero => rfl
  | succ width ih => rw [lastDigits, List.length_append, ih, List.length_singleton]

theorem toList_padded {width n : Nat} (positive : 0 < width) (fits : n < 10 ^ width) :
    (padded width n).toList = lastDigits width n := by
  induction width, positive using Nat.le_induction generalizing n with
  | base =>
    have single : n < 10 := fits
    rw [padded, Nat.toDigits_of_lt_base single, lastDigits, Nat.mod_eq_of_lt single]
    simp [lastDigits]
  | succ width positive ih =>
    have shorter : n / 10 < 10 ^ width := by
      rw [Nat.pow_succ] at fits
      exact Nat.div_lt_of_lt_mul (Nat.mul_comm 10 _ ▸ fits)
    have front := ih shorter
    rw [padded, String.toList_ofList] at front ⊢
    rw [lastDigits, ← front]
    by_cases single : n < 10
    · rw [Nat.toDigits_of_lt_base single, Nat.div_eq_of_lt single, Nat.toDigits_zero,
        Nat.mod_eq_of_lt single]
      obtain ⟨less, rfl⟩ : ∃ less, width = less + 1 := ⟨width - 1, by omega⟩
      simp [List.replicate_succ']
    · rw [Nat.toDigits_of_base_le (by decide) (by omega : 10 ≤ n)]
      simp

theorem append_lt_append_iff {xs ys : List Char} (same : xs.length = ys.length)
    (us vs : List Char) : xs ++ us < ys ++ vs ↔ xs < ys ∨ (xs = ys ∧ us < vs) := by
  induction xs generalizing ys with
  | nil =>
    obtain rfl : ys = [] := List.length_eq_zero_iff.mp same.symm
    simp
  | cons x xs ih =>
    cases ys with
    | nil => cases same
    | cons y ys =>
      have rest := ih (Nat.succ.inj same)
      rw [List.cons_append, List.cons_append, List.cons_lt_cons_iff, List.cons_lt_cons_iff, rest,
        List.cons.injEq]
      tauto

theorem digitChar_lt_iff : ∀ m < 10, ∀ n < 10, Nat.digitChar m < Nat.digitChar n ↔ m < n := by
  decide

theorem lastDigits_eq_iff {width m n : Nat}
    (below : lastDigits width m < lastDigits width n ↔ m < n)
    (above : lastDigits width n < lastDigits width m ↔ n < m) :
    lastDigits width m = lastDigits width n ↔ m = n := by
  constructor
  · intro written
    rw [written] at below above
    have notBelow := mt below.mpr (lt_irrefl _)
    have notAbove := mt above.mpr (lt_irrefl _)
    omega
  · intro equal
    rw [equal]

theorem lastDigits_lt_iff {width m n : Nat} (first : m < 10 ^ width) (second : n < 10 ^ width) :
    lastDigits width m < lastDigits width n ↔ m < n := by
  induction width generalizing m n with
  | zero =>
    have zero : m = 0 ∧ n = 0 := by omega
    simp [lastDigits, zero]
  | succ width ih =>
    rw [Nat.pow_succ] at first second
    have front : m / 10 < 10 ^ width ∧ n / 10 < 10 ^ width := by omega
    have same := lastDigits_eq_iff (ih front.1 front.2) (ih front.2 front.1)
    have last := digitChar_lt_iff (m % 10) (by omega) (n % 10) (by omega)
    have sizes : (lastDigits width (m / 10)).length = (lastDigits width (n / 10)).length := by
      rw [length_lastDigits, length_lastDigits]
    rw [lastDigits, lastDigits, append_lt_append_iff sizes, ih front.1 front.2, same,
      List.cons_lt_cons_iff, last]
    simp only [lt_self_iff_false, and_false, or_false]
    omega

structure FourDigit (d : Date) : Prop where
  real : d.isReal
  least : 0 ≤ d.year
  greatest : d.year ≤ 9999

theorem daysIn_le (year : Int) (month : Nat) : daysIn year month ≤ 31 := by
  unfold daysIn
  repeat' split
  all_goals decide

theorem daysIn_month {year : Int} {month : Nat} (days : 0 < daysIn year month) : month ≤ 12 := by
  unfold daysIn at days
  split at days <;> omega

theorem FourDigit.fits {d : Date} (four : d.FourDigit) :
    d.year.toNat < 10 ^ 4 ∧ d.month < 10 ^ 2 ∧ d.day < 10 ^ 2 := by
  obtain ⟨real, least, greatest⟩ := four
  simp only [isReal, Bool.and_eq_true, decide_eq_true_eq] at real
  obtain ⟨⟨_, started⟩, ended⟩ := real
  have month := daysIn_month (Nat.lt_of_lt_of_le started ended)
  have day := Nat.le_trans ended (daysIn_le d.year d.month)
  omega

theorem FourDigit.toList_iso {d : Date} (four : d.FourDigit) :
    d.iso.toList = (lastDigits 4 d.year.toNat ++ ['-']) ++
      ((lastDigits 2 d.month ++ ['-']) ++ lastDigits 2 d.day) := by
  obtain ⟨year, month, day⟩ := four.fits
  simp [iso, toList_padded (by decide) year, toList_padded (by decide) month,
    toList_padded (by decide) day]

theorem dashed_lt_iff {width m n : Nat} (first : m < 10 ^ width) (second : n < 10 ^ width)
    (us vs : List Char) :
    (lastDigits width m ++ ['-']) ++ us < (lastDigits width n ++ ['-']) ++ vs ↔
      m < n ∨ (m = n ∧ us < vs) := by
  have sizes : (lastDigits width m).length = (lastDigits width n).length := by
    rw [length_lastDigits, length_lastDigits]
  have same := lastDigits_eq_iff (lastDigits_lt_iff first second) (lastDigits_lt_iff second first)
  rw [List.append_assoc, List.append_assoc, append_lt_append_iff sizes,
    lastDigits_lt_iff first second, same]
  simp

theorem iso_le_iff {a b : Date} (first : a.FourDigit) (second : b.FourDigit) :
    a.iso ≤ b.iso ↔ a.le b := by
  obtain ⟨aYear, aMonth, aDay⟩ := first.fits
  obtain ⟨bYear, bMonth, bDay⟩ := second.fits
  have least := first.least
  have least' := second.least
  rw [← not_lt, String.lt_iff_toList_lt, first.toList_iso, second.toList_iso,
    dashed_lt_iff bYear aYear, dashed_lt_iff bMonth aMonth, lastDigits_lt_iff bDay aDay]
  simp only [le, Bool.or_eq_true, Bool.and_eq_true, decide_eq_true_eq, beq_iff_eq]
  omega

theorem le_trans {a b c : Date} (first : a.le b) (second : b.le c) : a.le c := by
  simp only [le, Bool.or_eq_true, Bool.and_eq_true, decide_eq_true_eq, beq_iff_eq] at first second ⊢
  omega

instance (d : Date) : Decidable d.FourDigit :=
  decidable_of_iff (d.isReal ∧ 0 ≤ d.year ∧ d.year ≤ 9999)
    ⟨fun ⟨real, least, greatest⟩ => ⟨real, least, greatest⟩,
      fun ⟨real, least, greatest⟩ => ⟨real, least, greatest⟩⟩

end Date

namespace Season

theorem all_fourDigit : ∀ s ∈ all, s.first.FourDigit ∧ s.last.FourDigit := by
  decide

theorem eq_of_overlap : ∀ s ∈ all, ∀ t ∈ all, s.first.le t.last → t.first.le s.last → t = s := by
  decide

theorem ofName?_name : ∀ s ∈ all, ofName? s.name = some s := by
  decide

theorem holds_iff {s : Season} {day : Date} : s.holds day ↔ s.first.le day ∧ day.le s.last := by
  rw [holds, Bool.and_eq_true]

theorem eq_of_holds {s t : Season} (known : s ∈ all) (also : t ∈ all) {day : Date}
    (inFirst : s.holds day) (inSecond : t.holds day) : t = s := by
  obtain ⟨started, unfinished⟩ := holds_iff.mp inFirst
  obtain ⟨started', unfinished'⟩ := holds_iff.mp inSecond
  apply eq_of_overlap s known t also
  · exact Date.le_trans started unfinished'
  · exact Date.le_trans started' unfinished

theorem containing?_eq_some_iff {s : Season} (known : s ∈ all) (day : Date) :
    containing? day = some s ↔ s.holds day := by
  constructor
  · intro found
    simpa using List.find?_some found
  · intro inside
    cases found : containing? day with
    | none => exact absurd inside (List.find?_eq_none.mp found s known)
    | some t =>
      have among := List.mem_of_find?_eq_some found
      have alsoInside : t.holds day := by simpa using List.find?_some found
      rw [eq_of_holds known among inside alsoInside]

theorem holds_iff_texts {s : Season} (known : s ∈ all) {day : Date} (four : day.FourDigit) :
    s.holds day ↔ Names.bytes s.first.iso ≤ Names.bytes day.iso ∧
      Names.bytes day.iso ≤ Names.bytes s.last.iso := by
  obtain ⟨first, last⟩ := all_fourDigit s known
  rw [holds_iff, Names.bytes_le_iff, Names.bytes_le_iff, Date.iso_le_iff first four,
    Date.iso_le_iff four last]

def asked (value : Value) (kind : LiteralKind) : Expr :=
  .compare (.name "season") .eq (.literal value kind)

theorem term_asked (r : Roster) {s : Season} (known : s ∈ all) {value : Value}
    (named : value.text = s.name) (kind : LiteralKind) :
    r.term (asked value kind) = .ok (Roster.seasonTerm s) := by
  rw [asked, Roster.term, Roster.seasonLiteral?]
  simp only [named, ofName?_name s known]

def rangeText (m n : Nat) : String :=
  "games.gameDate >= " ++ Term.placeholder m ++ " AND games.gameDate <= " ++ Term.placeholder n

theorem range_text (m n : Nat) :
    (Term.both (.compare (.column Schema.gamesTable "gameDate") .ge (.parameter m))
      (.compare (.column Schema.gamesTable "gameDate") .le (.parameter n))).text
        Term.placeholder = rangeText m n := by
  unfold rangeText
  apply String.toList_injective
  simp [Term.text, Comparison.symbol, Schema.gamesTable]

theorem expression_asked (d : Draft) {s : Season} (known : s ∈ all) {value : Value}
    (named : value.text = s.name) (kind : LiteralKind) :
    d.expression (asked value kind) =
      .ok (rangeText (d.bound.length + 1) (d.bound.length + 2),
        ⟨d.roster, d.bound ++ [.string s.first.iso, .string s.last.iso]⟩) := by
  rw [Draft.expression, term_asked d.roster known named, ← range_text]
  rfl

/-- What is said of a season and a day. The condition on the season has its first and its
    last day for parameters, and the text of the day lies between these exactly if the
    season holds the day. Then the season is the one found for the day, and no other
    season holds it. -/
structure Agrees (s : Season) (day : Date) : Prop where
  written : ∀ (d : Draft) (value : Value) (kind : LiteralKind), value.text = s.name →
    d.expression (asked value kind) =
      .ok (rangeText (d.bound.length + 1) (d.bound.length + 2),
        ⟨d.roster, d.bound ++ [.string s.first.iso, .string s.last.iso]⟩)
  compared : s.holds day ↔ Names.bytes s.first.iso ≤ Names.bytes day.iso ∧
    Names.bytes day.iso ≤ Names.bytes s.last.iso
  only : s.holds day → ∀ t ∈ all, t.holds day → t = s
  found : containing? day = some s ↔ s.holds day

end Season

/-- Every season of the list and every day with a year of four digits agree, whether the
    season holds the day or not. -/
theorem season_filter_matches_lookup {day : Date} (four : day.FourDigit) :
    ∀ s ∈ Season.all, s.Agrees day := by
  intro s known
  constructor
  · intro d value kind named
    exact Season.expression_asked d known named kind
  · exact Season.holds_iff_texts known four
  · intro inside t also insideToo
    exact Season.eq_of_holds known also inside insideToo
  · exact Season.containing?_eq_some_iff known day

/-- The season that ran into October, on its last day. -/
theorem october_day_found : ∃ s ∈ Season.all, s.name = "2019-20" ∧
    s.Agrees ⟨2020, 10, 11⟩ ∧ Season.containing? ⟨2020, 10, 11⟩ = some s := by
  have known : (⟨"2019-20", ⟨2019, 10, 22⟩, ⟨2020, 10, 11⟩⟩ : Season) ∈ Season.all := by decide
  have four : Date.FourDigit ⟨2020, 10, 11⟩ := by decide
  have agrees := season_filter_matches_lookup four _ known
  exact ⟨_, known, rfl, agrees, agrees.found.mpr (by decide)⟩

end BoxScore
