import BoxScore.Sql.Statement
import Mathlib.Data.List.Basic
import Mathlib.Data.List.TakeWhile

/- The placeholders in the text of a statement are the numbers of its parameters, from
   one on and in order, as long as no name in the statement has a question mark. -/
namespace BoxScore.Sql

/-- The run of digits behind each question mark of a text, from left to right. -/
def placeholders : List Char → List String
  | [] => []
  | c :: cs =>
    if c = '?' then String.ofList (cs.takeWhile Char.isDigit) :: placeholders cs
    else placeholders cs

theorem placeholders_of_not_mem {cs : List Char} (clear : '?' ∉ cs) : placeholders cs = [] := by
  induction cs with
  | nil => rfl
  | cons c cs ih =>
    simp only [List.mem_cons, not_or] at clear
    rw [placeholders, if_neg (Ne.symm clear.1)]
    exact ih clear.2

theorem takeWhile_append_of_stop {cs ds : List Char} {d : Char} (other : d.isDigit = false) :
    (cs ++ d :: ds).takeWhile Char.isDigit = cs.takeWhile Char.isDigit := by
  induction cs with
  | nil => simp [other]
  | cons c cs ih =>
    cases digit : c.isDigit with
    | false => simp [digit]
    | true => simp [digit, ih]

/-- A text that goes on with anything but a digit does not lengthen a placeholder. -/
theorem placeholders_append (cs ds : List Char) {d : Char} (other : d.isDigit = false) :
    placeholders (cs ++ d :: ds) = placeholders cs ++ placeholders (d :: ds) := by
  induction cs with
  | nil => rfl
  | cons c cs ih =>
    rw [List.cons_append, placeholders]
    by_cases mark : c = '?'
    · simp [mark, placeholders, takeWhile_append_of_stop other, ih]
    · simp [mark, placeholders, ih]

theorem placeholders_append_of_not_mem {cs ds : List Char} (clear : '?' ∉ cs) :
    placeholders (cs ++ ds) = placeholders ds := by
  induction cs with
  | nil => rfl
  | cons c cs ih =>
    simp only [List.mem_cons, not_or] at clear
    rw [List.cons_append, placeholders, if_neg (Ne.symm clear.1)]
    exact ih clear.2

theorem placeholders_append_clear {cs ds : List Char} (clear : '?' ∉ ds)
    (stop : ds.head?.all (!·.isDigit)) : placeholders (cs ++ ds) = placeholders cs := by
  cases ds with
  | nil => rw [List.append_nil]
  | cons d ds =>
    have other : d.isDigit = false := by simpa using stop
    rw [placeholders_append cs ds other, placeholders_of_not_mem clear, List.append_nil]

theorem append_clear {a b : String} (first : '?' ∉ a.toList) (second : '?' ∉ b.toList) :
    '?' ∉ (a ++ b).toList := by
  rw [String.toList_append, List.mem_append, not_or]
  exact ⟨first, second⟩

theorem toString_isDigit (n : Nat) : ∀ c ∈ (toString n).toList, c.isDigit := by
  intro c member
  have digit : c ∈ Nat.toDigits 10 n := by simpa using member
  exact Nat.isDigit_of_mem_toDigits (by decide) (by decide) digit

theorem toString_clear (n : Nat) : '?' ∉ (toString n).toList := by
  intro member
  exact absurd (toString_isDigit n '?' member) (by decide)

theorem placeholders_placeholder (n : Nat) :
    placeholders (Term.placeholder n).toList = [toString n] := by
  have digits : (toString n).toList.takeWhile Char.isDigit = (toString n).toList :=
    List.takeWhile_eq_self_iff.mpr (toString_isDigit n)
  have rest := placeholders_of_not_mem (toString_clear n)
  simp only [Term.placeholder, String.toList_append]
  change String.ofList ((toString n).toList.takeWhile Char.isDigit) ::
    placeholders (toString n).toList = _
  rw [digits, rest, String.ofList_toList]

namespace Term

variable {α : Type}

def names : Term α → List String
  | .column table name => [table, name]
  | .word text => [text]
  | .fullName table => [table]
  | .cast t _ | .aggregate _ t | .group t => t.names
  | .distance l r | .compare l _ r | .both l r | .either l r => l.names ++ r.names
  | .parameter _ | .countRows | .always => []

theorem names_numbered (t : Term α) (bound : Nat) : (t.numbered bound).names = t.names := by
  induction t generalizing bound with
  | column table name => rfl
  | word text => rfl
  | parameter value => rfl
  | fullName table => rfl
  | cast t type ih => exact ih bound
  | aggregate f t ih => exact ih bound
  | countRows => rfl
  | distance l r left right => simp [numbered, names, left, right]
  | compare l op r left right => simp [numbered, names, left, right]
  | both l r left right => simp [numbered, names, left, right]
  | either l r left right => simp [numbered, names, left, right]
  | group t ih => exact ih bound
  | always => rfl

theorem range'_joined (bound m n : Nat) :
    List.range' (bound + 1) m ++ List.range' (bound + m + 1) n =
      List.range' (bound + 1) (m + n) := by
  rw [Nat.add_right_comm, List.range'_append_1]

theorem values_numbered (t : Term α) (bound : Nat) :
    (t.numbered bound).values = List.range' (bound + 1) t.values.length := by
  induction t generalizing bound with
  | column table name => rfl
  | word text => rfl
  | parameter value => rfl
  | fullName table => rfl
  | cast t type ih => exact ih bound
  | aggregate f t ih => exact ih bound
  | countRows => rfl
  | distance l r left right => simp [numbered, values, left, right, range'_joined]
  | compare l op r left right => simp [numbered, values, left, right, range'_joined]
  | both l r left right => simp [numbered, values, left, right, range'_joined]
  | either l r left right => simp [numbered, values, left, right, range'_joined]
  | group t ih => exact ih bound
  | always => rfl

theorem append_regroup (a b c d : String) : a ++ b ++ c ++ d = a ++ (b ++ c ++ d) := by
  simp only [String.append_assoc]

theorem text_cast (hole : α → String) (t : Term α) (type : NumericType) :
    (cast t type).text hole = "CAST(" ++ t.text hole ++ (" AS " ++ type.text ++ ")") :=
  append_regroup _ _ _ _

theorem text_distance (hole : α → String) (l r : Term α) :
    (distance l r).text hole = "ABS(" ++ (l.text hole ++ " - " ++ r.text hole) ++ ")" :=
  congrArg (· ++ ")") (append_regroup _ _ _ _)

theorem text_compare (hole : α → String) (l r : Term α) (op : Comparison) :
    (compare l op r).text hole = l.text hole ++ (" " ++ op.symbol ++ " ") ++ r.text hole :=
  congrArg (· ++ r.text hole) (append_regroup _ _ _ _)

theorem symbol_clear (op : Comparison) : '?' ∉ (" " ++ op.symbol ++ " ").toList := by
  cases op <;> decide

theorem sqlName_clear (f : Aggregate) : '?' ∉ (f.sqlName ++ "(").toList := by
  cases f <;> decide

theorem type_clear (type : NumericType) : '?' ∉ (" AS " ++ type.text ++ ")").toList := by
  cases type <;> decide

theorem text_clear (hole : α → String) (t : Term α) (none : t.values = [])
    (clear : ∀ n ∈ t.names, '?' ∉ n.toList) : '?' ∉ (t.text hole).toList := by
  induction t with
  | column table name =>
    have first := clear table (by simp [names])
    have second := clear name (by simp [names])
    exact append_clear (append_clear first (by decide)) second
  | word text => exact clear text (by simp [names])
  | parameter value => simp [values] at none
  | fullName table =>
    have own := clear table (by simp [names])
    rw [text]
    exact append_clear (append_clear (append_clear (append_clear (by decide) own) (by decide)) own)
      (by decide)
  | cast t type ih =>
    rw [text_cast]
    exact append_clear (append_clear (by decide) (ih none clear)) (type_clear type)
  | aggregate f t ih =>
    exact append_clear (append_clear (sqlName_clear f) (ih none clear)) (by decide)
  | countRows =>
    rw [text]
    decide
  | distance l r left right =>
    obtain ⟨noLeft, noRight⟩ := List.append_eq_nil_iff.mp none
    obtain ⟨clearLeft, clearRight⟩ := List.forall_mem_append.mp clear
    have inner := append_clear (append_clear (left noLeft clearLeft) (by decide : '?' ∉ " - ".toList))
      (right noRight clearRight)
    rw [text_distance]
    exact append_clear (append_clear (by decide) inner) (by decide)
  | compare l op r left right =>
    obtain ⟨noLeft, noRight⟩ := List.append_eq_nil_iff.mp none
    obtain ⟨clearLeft, clearRight⟩ := List.forall_mem_append.mp clear
    rw [text_compare]
    exact append_clear (append_clear (left noLeft clearLeft) (symbol_clear op))
      (right noRight clearRight)
  | both l r left right =>
    obtain ⟨noLeft, noRight⟩ := List.append_eq_nil_iff.mp none
    obtain ⟨clearLeft, clearRight⟩ := List.forall_mem_append.mp clear
    exact append_clear (append_clear (left noLeft clearLeft) (by decide)) (right noRight clearRight)
  | either l r left right =>
    obtain ⟨noLeft, noRight⟩ := List.append_eq_nil_iff.mp none
    obtain ⟨clearLeft, clearRight⟩ := List.forall_mem_append.mp clear
    exact append_clear (append_clear (left noLeft clearLeft) (by decide)) (right noRight clearRight)
  | group t ih => exact append_clear (append_clear (by decide) (ih none clear)) (by decide)
  | always =>
    rw [text]
    decide

theorem placeholders_enclosed {front inner back : String} (before : '?' ∉ front.toList)
    (behind : '?' ∉ back.toList) (stop : back.toList.head?.all (!·.isDigit)) :
    placeholders (front ++ inner ++ back).toList = placeholders inner.toList := by
  rw [String.toList_append, placeholders_append_clear behind stop, String.toList_append,
    placeholders_append_of_not_mem before]

theorem placeholders_between {left middle right : String} (clear : '?' ∉ middle.toList)
    (stop : middle.toList.head?.all (!·.isDigit)) (some : middle ≠ "") :
    placeholders (left ++ middle ++ right).toList =
      placeholders left.toList ++ placeholders right.toList := by
  cases chars : middle.toList with
  | nil => exact absurd (String.toList_eq_nil_iff.mp chars) some
  | cons d ds =>
    have other : d.isDigit = false := by simpa [chars] using stop
    rw [String.append_assoc, String.toList_append, String.toList_append, chars, List.cons_append,
      placeholders_append _ _ other, ← List.cons_append, ← chars,
      placeholders_append_of_not_mem clear]

theorem placeholders_text (t : Term Nat) (clear : ∀ n ∈ t.names, '?' ∉ n.toList) :
    placeholders (t.text placeholder).toList = t.values.map toString := by
  induction t with
  | column table name => exact placeholders_of_not_mem (text_clear _ _ rfl clear)
  | word text => exact placeholders_of_not_mem (text_clear _ _ rfl clear)
  | parameter value => exact placeholders_placeholder value
  | fullName table => exact placeholders_of_not_mem (text_clear _ _ rfl clear)
  | cast t type ih =>
    rw [text_cast, placeholders_enclosed (by decide) (type_clear type) (by cases type <;> decide)]
    exact ih clear
  | aggregate f t ih =>
    rw [text, placeholders_enclosed (sqlName_clear f) (by decide) (by decide)]
    exact ih clear
  | countRows => rfl
  | distance l r left right =>
    obtain ⟨clearLeft, clearRight⟩ := List.forall_mem_append.mp clear
    rw [text_distance, placeholders_enclosed (by decide) (by decide) (by decide),
      placeholders_between (by decide) (by decide) (by decide), left clearLeft, right clearRight,
      values, List.map_append]
  | compare l op r left right =>
    obtain ⟨clearLeft, clearRight⟩ := List.forall_mem_append.mp clear
    rw [text_compare, placeholders_between (symbol_clear op) (by cases op <;> decide)
      (by cases op <;> decide), left clearLeft, right clearRight, values, List.map_append]
  | both l r left right =>
    obtain ⟨clearLeft, clearRight⟩ := List.forall_mem_append.mp clear
    rw [text, placeholders_between (by decide) (by decide) (by decide), left clearLeft,
      right clearRight, values, List.map_append]
  | either l r left right =>
    obtain ⟨clearLeft, clearRight⟩ := List.forall_mem_append.mp clear
    rw [text, placeholders_between (by decide) (by decide) (by decide), left clearLeft,
      right clearRight, values, List.map_append]
  | group t ih =>
    rw [text, placeholders_enclosed (by decide) (by decide) (by decide)]
    exact ih clear
  | always => rfl

end Term

theorem numbered_names {α : Type} (ts : List (Term α)) (bound : Nat) :
    (numbered bound ts).flatMap Term.names = ts.flatMap Term.names := by
  induction ts generalizing bound with
  | nil => rfl
  | cons t ts ih => simp [numbered, Term.names_numbered, ih]

theorem numbered_values {α : Type} (ts : List (Term α)) (bound : Nat) :
    (numbered bound ts).flatMap Term.values = List.range' (bound + 1) (values ts).length := by
  induction ts generalizing bound with
  | nil => rfl
  | cons t ts ih =>
    simp only [numbered, List.flatMap_cons, ih, Term.values_numbered, Term.range'_joined, values,
      List.length_append]

theorem placeholders_texts {α : Type} (ts : List (Term α)) (bound : Nat)
    (clear : ∀ n ∈ ts.flatMap Term.names, '?' ∉ n.toList) :
    (texts bound ts).flatMap (fun text => placeholders text.toList) =
      (List.range' (bound + 1) (values ts).length).map toString := by
  rw [← numbered_names ts bound] at clear
  rw [← numbered_values, texts, List.flatMap_map, List.map_flatMap]
  apply List.flatMap_congr
  intro t member
  apply Term.placeholders_text
  intro n inside
  exact clear n (List.mem_flatMap.mpr ⟨t, member, inside⟩)

theorem intercalate_clear {separator : List Char} {parts : List (List Char)}
    (between : '?' ∉ separator) (clear : ∀ part ∈ parts, '?' ∉ part) :
    '?' ∉ separator.intercalate parts := by
  induction parts with
  | nil => simp
  | cons part parts ih =>
    cases parts with
    | nil => simpa using clear
    | cons next parts =>
      have first := clear part (by simp)
      have rest := ih (fun other member => clear other (by simp [member]))
      rw [List.intercalate_cons_cons]
      simp [first, between, rest]

theorem placeholders_intercalate (parts : List (List Char)) :
    placeholders (" AND ".toList.intercalate parts) = parts.flatMap placeholders := by
  induction parts with
  | nil => rfl
  | cons part parts ih =>
    cases parts with
    | nil => simp
    | cons next parts =>
      rw [List.intercalate_cons_cons, List.flatMap_cons, ← ih]
      simp [placeholders, placeholders_append]

namespace Clauses

def opening (c : Clauses) : String :=
  "SELECT " ++ ", ".intercalate c.projection ++ " FROM " ++ c.source ++
    String.join (c.joins.map (" " ++ ·))

def condition (c : Clauses) : String :=
  if c.filters.isEmpty then "" else " WHERE " ++ " AND ".intercalate c.filters

def ending (c : Clauses) : String :=
  (match c.order with
    | some order => " ORDER BY " ++ order
    | none => "") ++
  (match c.limit with
    | some count => " LIMIT " ++ toString count.toNat
    | none => "")

theorem text_eq (c : Clauses) : c.text = c.opening ++ c.condition ++ c.ending :=
  String.append_assoc

theorem opening_clear {c : Clauses} (shown : ∀ p ∈ c.projection, '?' ∉ p.toList)
    (source : '?' ∉ c.source.toList) (joined : ∀ j ∈ c.joins, '?' ∉ j.toList) :
    '?' ∉ c.opening.toList := by
  have list : '?' ∉ ", ".toList.intercalate (c.projection.map String.toList) := by
    apply intercalate_clear (by decide)
    intro part member
    obtain ⟨p, inside, rfl⟩ := List.mem_map.mp member
    exact shown p inside
  have tables : '?' ∉ (String.join (c.joins.map (" " ++ ·))).toList := by
    intro member
    simp only [String.toList_join, List.mem_flatMap, List.mem_map] at member
    obtain ⟨text, ⟨j, inside, rfl⟩, mark⟩ := member
    exact joined j inside (by simpa using mark)
  simp only [opening, String.toList_append, String.toList_intercalate, List.mem_append, list,
    source, tables, or_false, not_or]
  decide

theorem placeholders_condition (c : Clauses) :
    placeholders c.condition.toList = c.filters.flatMap fun f => placeholders f.toList := by
  unfold condition
  split
  · rename_i empty
    rw [List.isEmpty_iff.mp empty]
    rfl
  · rw [String.toList_append, String.toList_intercalate,
      placeholders_append_of_not_mem (by decide), placeholders_intercalate, List.flatMap_map]

theorem ending_clear {c : Clauses} (sorted : ∀ o ∈ c.order, '?' ∉ o.toList) :
    '?' ∉ c.ending.toList := by
  have rows : ∀ count : UInt64, '?' ∉ (" LIMIT " ++ toString count.toNat).toList := by
    intro count
    rw [String.toList_append, List.mem_append, not_or]
    exact ⟨by decide, toString_clear _⟩
  have order : ∀ text : String, '?' ∉ text.toList → '?' ∉ (" ORDER BY " ++ text).toList := by
    intro text clear
    rw [String.toList_append, List.mem_append, not_or]
    exact ⟨by decide, clear⟩
  rw [ending, String.toList_append, List.mem_append, not_or]
  constructor
  · split
    · rename_i text same
      exact order text (sorted text same)
    · simp
  · split
    · exact rows _
    · simp

theorem ending_head (c : Clauses) : c.ending.toList.head?.all (!·.isDigit) := by
  cases order : c.order <;> cases limit : c.limit <;> simp [ending, order, limit]

end Clauses

theorem Fixed.values_eq_nil (t : Fixed) : t.values = [] := by
  cases found : t.values with
  | nil => rfl
  | cons value rest => exact value.elim

theorem Fixed.text_clear (t : Fixed) (clear : ∀ n ∈ t.names, '?' ∉ n.toList) :
    '?' ∉ t.text.toList := Term.text_clear _ t t.values_eq_nil clear

def Item.names (i : Item) : List String := i.label.toList ++ i.term.names

def Join.names (j : Join) : List String := j.table :: j.alias?.toList ++ j.condition.names

theorem Item.text_clear (i : Item) (clear : ∀ n ∈ i.names, '?' ∉ n.toList) :
    '?' ∉ i.text.toList := by
  obtain ⟨label, term⟩ := List.forall_mem_append.mp clear
  have own := Fixed.text_clear i.term term
  unfold Item.text
  split
  · rename_i name same
    simp [same] at label
    simp [own, label]
  · exact own

theorem Join.text_clear (j : Join) (clear : ∀ n ∈ j.names, '?' ∉ n.toList) :
    '?' ∉ j.text.toList := by
  obtain ⟨tables, condition⟩ := List.forall_mem_append.mp clear
  have own := Fixed.text_clear j.condition condition
  have table := append_clear (by decide : '?' ∉ "LEFT JOIN ".toList) (tables j.table (by simp))
  cases renamed : j.alias? with
  | none =>
    rw [Join.text, renamed]
    exact append_clear (append_clear (append_clear table (by decide)) (by decide)) own
  | some name =>
    have other := tables name (by simp [renamed])
    rw [Join.text, renamed]
    exact append_clear
      (append_clear (append_clear table (append_clear (by decide) other)) (by decide)) own

theorem SortKey.text_clear (k : SortKey) (clear : ∀ n ∈ k.term.names, '?' ∉ n.toList) :
    '?' ∉ k.text.toList := by
  have own := Fixed.text_clear k.term clear
  unfold SortKey.text
  split <;> simp [own]

namespace Select

variable {α : Type}

def names (s : Select α) : List String :=
  s.source :: s.projection.flatMap Item.names ++ s.joins.flatMap Join.names ++
    s.filters.flatMap Term.names ++ s.order.toList.flatMap (·.term.names)

/-- The placeholders of a statement are numbered from one on, one for each parameter. -/
theorem placeholders_text (s : Select α) (clear : ∀ n ∈ s.names, '?' ∉ n.toList) :
    placeholders s.text.toList = (List.range' 1 s.parameters.length).map toString := by
  simp only [names, List.forall_mem_append, List.forall_mem_cons] at clear
  obtain ⟨⟨⟨⟨source, shown⟩, joined⟩, filters⟩, sorted⟩ := clear
  have opening : '?' ∉ s.clauses.opening.toList := by
    refine Clauses.opening_clear ?_ source ?_
    · intro text member
      obtain ⟨i, inside, rfl⟩ := List.mem_map.mp member
      exact i.text_clear fun n own => shown n (List.mem_flatMap.mpr ⟨i, inside, own⟩)
    · intro text member
      obtain ⟨j, inside, rfl⟩ := List.mem_map.mp member
      exact j.text_clear fun n own => joined n (List.mem_flatMap.mpr ⟨j, inside, own⟩)
  have order : ∀ o ∈ s.clauses.order, '?' ∉ o.toList := by
    intro text member
    obtain ⟨k, inside, rfl⟩ := Option.map_eq_some_iff.mp member
    exact k.text_clear fun n own => sorted n (List.mem_flatMap.mpr ⟨k, by simp [inside], own⟩)
  calc placeholders s.text.toList
      = placeholders (s.clauses.opening.toList ++ s.clauses.condition.toList ++
          s.clauses.ending.toList) := by
        rw [text, Clauses.text_eq, String.toList_append, String.toList_append]
    _ = placeholders s.clauses.condition.toList := by
        rw [placeholders_append_clear (Clauses.ending_clear order) s.clauses.ending_head,
          placeholders_append_of_not_mem opening]
    _ = (List.range' 1 s.parameters.length).map toString := by
        rw [Clauses.placeholders_condition]
        exact placeholders_texts s.filters 0 filters

end Select
end BoxScore.Sql
