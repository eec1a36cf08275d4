import BoxScore.Proofs.StatementNames

/- Texts that are lexically safe: words and signs, the one quoted blank, the minus between
   two blanks, and brackets around safe texts. A statement whose names are words is safe,
   and what safety means for quotes, dashes and brackets is proved once for all of them.
   Compiled texts are safe whatever strings their sources hold. -/
namespace BoxScore

namespace Sql

open Token

def isPlain (c : Char) : Bool :=
  isNameChar c || [' ', '.', ',', '*', '<', '>', '=', '!', '?'].contains c

def isAllowed (c : Char) : Bool :=
  isNameChar c ||
    [' ', '.', ',', '(', ')', '|', '\'', '*', '<', '>', '=', '!', '?', '-'].contains c

inductive Safe : List Char → Prop where
  | plain {cs : List Char} (chars : ∀ c ∈ cs, isPlain c) : Safe cs
  | append {cs ds : List Char} (first : Safe cs) (second : Safe ds) : Safe (cs ++ ds)
  | group {cs : List Char} (inner : Safe cs) : Safe ('(' :: (cs ++ [')']))
  | blank : Safe "|| ' ' ||".toList
  | minus : Safe " - ".toList

/-- Each `c` of a text belongs to an occurrence of the pattern. -/
def Inside (c : Char) (pattern cs : List Char) : Prop :=
  ∀ front back, cs = front ++ c :: back → ∃ before after, cs = before ++ pattern ++ after ∧
    before.length ≤ front.length ∧ front.length < before.length + pattern.length

structure Balanced (cs : List Char) : Prop where
  never : ∀ front, front <+: cs → front.count ')' ≤ front.count '('
  total : cs.count ')' = cs.count '('

theorem inside_of_not_mem {c : Char} {pattern cs : List Char} (absent : c ∉ cs) :
    Inside c pattern cs := by
  intro front back split
  exact absurd (by simp [split]) absent

theorem inside_pattern (c : Char) (pattern : List Char) : Inside c pattern pattern := by
  intro front back split
  refine ⟨[], [], by simp, by simp, ?_⟩
  rw [split]
  simp

theorem inside_append {c : Char} {pattern cs ds : List Char} (first : Inside c pattern cs)
    (second : Inside c pattern ds) : Inside c pattern (cs ++ ds) := by
  intro front back split
  have later : ∀ more, front = cs ++ more → ds = more ++ c :: back → ∃ before after,
      cs ++ ds = before ++ pattern ++ after ∧ before.length ≤ front.length ∧
      front.length < before.length + pattern.length := by
    intro more here rest
    obtain ⟨before, after, whole, lower, upper⟩ := second more back rest
    refine ⟨cs ++ before, after, by simp [whole], ?_, ?_⟩
    · simp [here, lower]
    · simp only [here, List.length_append]
      omega
  rcases List.append_eq_append_iff.mp split with ⟨more, here, rest⟩ | ⟨more, here, rest⟩
  · exact later more here rest
  · cases more with
    | nil => exact later [] (by simpa using here.symm) (by simpa using rest.symm)
    | cons d more =>
      obtain ⟨rfl, -⟩ := List.cons.inj rest
      obtain ⟨before, after, whole, lower, upper⟩ := first front more here
      exact ⟨before, after ++ ds, by simp [whole], lower, upper⟩

theorem balanced_append {cs ds : List Char} (first : Balanced cs) (second : Balanced ds) :
    Balanced (cs ++ ds) where
  never := by
    intro front before
    rcases List.prefix_or_prefix_of_prefix before (List.prefix_append cs ds) with inside | beyond
    · exact first.never front inside
    · obtain ⟨more, rfl⟩ := beyond
      have rest := second.never more ((List.prefix_append_right_inj cs).mp before)
      rw [List.count_append, List.count_append, first.total]
      omega
  total := by
    rw [List.count_append, List.count_append, first.total, second.total]

theorem balanced_of_not_mem {cs : List Char} (noOpen : '(' ∉ cs) (noClose : ')' ∉ cs) :
    Balanced cs where
  never := by
    intro front before
    rw [List.count_eq_zero.mpr fun member => noClose (before.subset member)]
    exact Nat.zero_le _
  total := by
    rw [List.count_eq_zero.mpr noOpen, List.count_eq_zero.mpr noClose]

theorem balanced_group {cs : List Char} (inner : Balanced cs) :
    Balanced ('(' :: (cs ++ [')'])) where
  never := by
    intro front before
    rcases List.prefix_cons_iff.mp before with rfl | ⟨rest, rfl, within⟩
    · simp
    rcases List.prefix_concat_iff.mp within with rfl | shorter
    · simp [inner.total]
    · have smaller := inner.never rest shorter
      simp
      omega
  total := by simp [inner.total]

namespace Safe

theorem allowed {cs : List Char} (safe : Safe cs) : ∀ c ∈ cs, isAllowed c := by
  induction safe with
  | plain chars =>
    intro c member
    have plain := chars c member
    simp only [isPlain, isAllowed, Bool.or_eq_true, List.contains_iff_mem, List.mem_cons] at plain ⊢
    grind
  | append first second one two =>
    intro c member
    rcases List.mem_append.mp member with left | right
    · exact one c left
    · exact two c right
  | group inner ih =>
    intro c member
    simp only [List.mem_cons, List.mem_append, List.not_mem_nil, or_false] at member
    rcases member with rfl | inside | rfl
    · decide
    · exact ih c inside
    · decide
  | blank => exact List.all_eq_true.mp (by decide)
  | minus => exact List.all_eq_true.mp (by decide)

theorem inside {c : Char} {pattern cs : List Char} (safe : Safe cs) (special : isPlain c = false)
    (noOpen : c ≠ '(') (noClose : c ≠ ')') (blank : Inside c pattern "|| ' ' ||".toList)
    (minus : Inside c pattern " - ".toList) : Inside c pattern cs := by
  induction safe with
  | plain chars =>
    apply inside_of_not_mem
    intro member
    have plain := chars c member
    simp [special] at plain
  | append first second one two => exact inside_append one two
  | @group cs inner ih =>
    have opened : Inside c pattern ['('] := inside_of_not_mem (by simpa using noOpen)
    have closed : Inside c pattern [')'] := inside_of_not_mem (by simpa using noClose)
    exact inside_append opened (inside_append ih closed)
  | blank => exact blank
  | minus => exact minus

theorem quotes {cs : List Char} (safe : Safe cs) : Inside '\'' "|| ' ' ||".toList cs :=
  safe.inside (by decide) (by decide) (by decide) (inside_pattern _ _)
    (inside_of_not_mem (by decide))

theorem dashes {cs : List Char} (safe : Safe cs) : Inside '-' " - ".toList cs :=
  safe.inside (by decide) (by decide) (by decide) (inside_of_not_mem (by decide))
    (inside_pattern _ _)

theorem noDoubleDash {cs : List Char} (safe : Safe cs) : ¬ "--".toList <:+: cs := by
  rintro ⟨front, back, split⟩
  have dash : cs = front ++ '-' :: '-' :: back := by simp [← split]
  obtain ⟨before, after, whole, lower, upper⟩ := safe.dashes front ('-' :: back) dash
  -- The first dash has to be the one of the pattern, and the pattern goes on with a blank.
  have here : cs[front.length]? = some '-' := by simp [dash]
  have next : cs[front.length + 1]? = some '-' := by simp [dash]
  obtain ⟨k, place⟩ := Nat.exists_eq_add_of_le lower
  have short : k < 3 := by
    have three : " - ".toList.length = 3 := rfl
    omega
  rw [place, whole] at here next
  match k, short with
  | 0, _ => simp at here
  | 1, _ => simp [Nat.add_assoc] at next
  | 2, _ => simp at here

theorem balanced {cs : List Char} (safe : Safe cs) : Balanced cs := by
  induction safe with
  | plain chars =>
    apply balanced_of_not_mem
    · intro member
      exact absurd (chars _ member) (by decide)
    · intro member
      exact absurd (chars _ member) (by decide)
  | append first second one two => exact balanced_append one two
  | group inner ih => exact balanced_group ih
  | blank => exact balanced_of_not_mem (by decide) (by decide)
  | minus => exact balanced_of_not_mem (by decide) (by decide)

theorem signs {cs : List Char} (checked : cs.all isPlain) : Safe cs :=
  .plain (List.all_eq_true.mp checked)

theorem word {text : String} (word : isWord text) : Safe text.toList := by
  refine .plain ?_
  intro c member
  have own := List.all_eq_true.mp word c member
  simp [isPlain, own]

theorem join {a b : String} (first : Safe a.toList) (second : Safe b.toList) :
    Safe (a ++ b).toList := by
  rw [String.toList_append]
  exact .append first second

theorem call {head f inner : String} (opened : head = f ++ "(") (name : Safe f.toList)
    (argument : Safe inner.toList) : Safe (head ++ inner ++ ")").toList := by
  have grouped : (head ++ inner ++ ")").toList = f.toList ++ '(' :: (inner.toList ++ [')']) := by
    simp [opened]
  rw [grouped]
  exact .append name (.group argument)

theorem intercalate {separator : List Char} {parts : List (List Char)} (between : Safe separator)
    (safe : ∀ part ∈ parts, Safe part) : Safe (separator.intercalate parts) := by
  induction parts with
  | nil => exact .plain (by simp)
  | cons part parts ih =>
    cases parts with
    | nil => simpa using safe part (by simp)
    | cons next parts =>
      have first := safe part (by simp)
      have rest := ih fun other member => safe other (by simp [member])
      rw [List.intercalate_cons_cons]
      exact .append (.append first between) rest

end Safe

theorem toString_isWord (n : Nat) : isWord (toString n) := by
  apply List.all_eq_true.mpr
  intro c member
  simp [isNameChar, Char.isAlphanum, toString_isDigit n c member]

theorem placeholder_safe (n : Nat) : Safe (Term.placeholder n).toList :=
  .join (.signs (by decide)) (.word (toString_isWord n))

theorem quoted_blank_safe : Safe ".firstName || ' ' || ".toList := by
  have split : ".firstName || ' ' || " = ".firstName " ++ "|| ' ' ||" ++ " " := rfl
  rw [split]
  exact .join (.join (.signs (by decide)) .blank) (.signs (by decide))

theorem append_enclose (a b c d e f : String) :
    a ++ b ++ c ++ d ++ (e ++ f) = a ++ (b ++ c ++ d ++ e) ++ f := by
  simp only [String.append_assoc]

theorem Term.text_safe {α : Type} {hole : α → String} (holes : ∀ value, Safe (hole value).toList)
    (t : Term α) (words : ∀ n ∈ t.names, isWord n) : Safe (t.text hole).toList := by
  induction t with
  | column table name =>
    have first := words table (by simp [names])
    have second := words name (by simp [names])
    exact .join (.join (.word first) (.signs (by decide))) (.word second)
  | word text => exact .word (words text (by simp [names]))
  | parameter value => exact holes value
  | fullName table =>
    have own : Safe table.toList := .word (words table (by simp [names]))
    have closed : ".lastName)" = ".lastName" ++ ")" := rfl
    rw [text, closed, append_enclose]
    refine .call (f := "TRIM") rfl (.signs (by decide)) ?_
    exact .join (.join (.join own quoted_blank_safe) own) (.signs (by decide))
  | cast t type ih =>
    have inner : Safe (t.text hole ++ " AS " ++ type.text).toList :=
      .join (.join (ih words) (.signs (by decide))) (.signs (by cases type <;> decide))
    have grouped : (cast t type).text hole =
        "CAST(" ++ (t.text hole ++ " AS " ++ type.text) ++ ")" :=
      congrArg (· ++ ")") (append_regroup _ _ _ _)
    rw [grouped]
    exact .call (f := "CAST") rfl (.signs (by decide)) inner
  | aggregate f t ih => exact .call rfl (.signs (by cases f <;> decide)) (ih words)
  | countRows =>
    have split : "COUNT(*)" = "COUNT(" ++ "*" ++ ")" := rfl
    rw [text, split]
    exact .call (f := "COUNT") rfl (.signs (by decide)) (.signs (by decide))
  | distance l r left right =>
    obtain ⟨wordsLeft, wordsRight⟩ := List.forall_mem_append.mp words
    rw [text_distance]
    refine .call (f := "ABS") rfl (.signs (by decide)) ?_
    exact .join (.join (left wordsLeft) .minus) (right wordsRight)
  | compare l op r left right =>
    obtain ⟨wordsLeft, wordsRight⟩ := List.forall_mem_append.mp words
    rw [text_compare]
    refine .join (.join (left wordsLeft) ?_) (right wordsRight)
    exact .signs (by cases op <;> decide)
  | both l r left right =>
    obtain ⟨wordsLeft, wordsRight⟩ := List.forall_mem_append.mp words
    rw [text]
    exact .join (.join (left wordsLeft) (.signs (by decide))) (right wordsRight)
  | either l r left right =>
    obtain ⟨wordsLeft, wordsRight⟩ := List.forall_mem_append.mp words
    rw [text]
    exact .join (.join (left wordsLeft) (.signs (by decide))) (right wordsRight)
  | group t ih =>
    rw [text]
    exact .call (f := "") rfl (.plain (by simp)) (ih words)
  | always =>
    rw [text]
    exact .signs (by decide)

theorem Fixed.text_safe (t : Fixed) (words : ∀ n ∈ t.names, isWord n) : Safe t.text.toList :=
  Term.text_safe (fun value => value.elim) t words

theorem Item.text_safe (i : Item) (words : ∀ n ∈ i.names, isWord n) : Safe i.text.toList := by
  obtain ⟨label, term⟩ := List.forall_mem_append.mp words
  have own := Fixed.text_safe i.term term
  unfold Item.text
  split
  · rename_i name same
    exact .join (.join own (.signs (by decide))) (.word (label name (by simp [same])))
  · exact own

theorem Join.text_safe (j : Join) (words : ∀ n ∈ j.names, isWord n) : Safe j.text.toList := by
  obtain ⟨tables, condition⟩ := List.forall_mem_append.mp words
  have own := Fixed.text_safe j.condition condition
  have head : Safe "LEFT JOIN ".toList := .signs (by decide)
  have on : Safe " ON ".toList := .signs (by decide)
  have table : Safe j.table.toList := .word (tables j.table (by simp))
  unfold Join.text
  split
  · rename_i name renamed
    have other : Safe name.toList := .word (tables name (by simp [renamed]))
    have as : Safe " AS ".toList := .signs (by decide)
    exact .join (.join (.join (.join head table) (.join as other)) on) own
  · exact .join (.join (.join (.join head table) (.plain (by simp))) on) own

theorem SortKey.text_safe (k : SortKey) (words : ∀ n ∈ k.term.names, isWord n) :
    Safe k.text.toList := by
  refine .join (Fixed.text_safe k.term words) ?_
  split
  · exact .signs (by decide)
  · exact .signs (by decide)

namespace Clauses

theorem opening_safe {c : Clauses} (shown : ∀ p ∈ c.projection, Safe p.toList)
    (source : Safe c.source.toList) (joined : ∀ j ∈ c.joins, Safe j.toList) :
    Safe c.opening.toList := by
  have list : Safe (", ".intercalate c.projection).toList := by
    rw [String.toList_intercalate]
    refine .intercalate (.signs (by decide)) ?_
    intro part member
    obtain ⟨p, inside, rfl⟩ := List.mem_map.mp member
    exact shown p inside
  have tables : ∀ joins : List String, (∀ j ∈ joins, Safe j.toList) →
      Safe (String.join (joins.map (" " ++ ·))).toList := by
    intro joins safe
    induction joins with
    | nil => exact .plain (by simp)
    | cons j joins ih =>
      rw [List.map_cons, String.join_cons]
      exact .join (.join (.signs (by decide)) (safe j (by simp)))
        (ih fun other member => safe other (by simp [member]))
  exact .join (.join (.join (.join (.signs (by decide)) list) (.signs (by decide))) source)
    (tables c.joins joined)

theorem condition_safe {c : Clauses} (filters : ∀ f ∈ c.filters, Safe f.toList) :
    Safe c.condition.toList := by
  unfold condition
  split
  · exact .plain (by simp)
  · refine .join (.signs (by decide)) ?_
    rw [String.toList_intercalate]
    refine .intercalate (.signs (by decide)) ?_
    intro part member
    obtain ⟨f, inside, rfl⟩ := List.mem_map.mp member
    exact filters f inside

theorem ending_safe {c : Clauses} (sorted : ∀ o ∈ c.order, Safe o.toList) :
    Safe c.ending.toList := by
  refine .join ?_ ?_
  · split
    · rename_i order same
      exact .join (.signs (by decide)) (sorted order same)
    · exact .plain (by simp)
  · split
    · exact .join (.signs (by decide)) (.word (toString_isWord _))
    · exact .plain (by simp)

end Clauses

theorem Select.text_safe {α : Type} (s : Select α) (words : ∀ n ∈ s.names, isWord n) :
    Safe s.text.toList := by
  simp only [names, List.forall_mem_append, List.forall_mem_cons] at words
  obtain ⟨⟨⟨⟨source, shown⟩, joined⟩, filters⟩, sorted⟩ := words
  rw [Select.text, Clauses.text_eq]
  refine .join (.join (Clauses.opening_safe ?_ (.word source) ?_) (Clauses.condition_safe ?_))
    (Clauses.ending_safe ?_)
  · intro text member
    obtain ⟨i, inside, rfl⟩ := List.mem_map.mp member
    exact i.text_safe fun n own => shown n (List.mem_flatMap.mpr ⟨i, inside, own⟩)
  · intro text member
    obtain ⟨j, inside, rfl⟩ := List.mem_map.mp member
    exact j.text_safe fun n own => joined n (List.mem_flatMap.mpr ⟨j, inside, own⟩)
  · intro text member
    obtain ⟨t, inside, rfl⟩ := List.mem_map.mp member
    rw [← numbered_names s.filters 0] at filters
    exact t.text_safe placeholder_safe fun n own =>
      filters n (List.mem_flatMap.mpr ⟨t, inside, own⟩)
  · intro text member
    obtain ⟨k, inside, rfl⟩ := Option.map_eq_some_iff.mp member
    exact k.text_safe fun n own => sorted n (List.mem_flatMap.mpr ⟨k, by simp [inside], own⟩)

end Sql

open Sql

theorem compile_safe {settings : Settings} {source : String} {plan : Plan}
    (compiled : compile settings source = .ok plan) : Safe plan.sql.toList := by
  rcases compile_names naming_isWord compiled with ⟨text, _⟩ | ⟨s, text, _, words⟩
  · rw [text]
    exact .plain (by simp)
  · rw [text]
    exact s.text_safe words

/-- A compiled text has only allowed characters, quotes only around the blank between two
    names, no comment, and brackets that match. -/
theorem compiled_text_lexically_safe {settings : Settings} {source : String} {plan : Plan}
    (compiled : compile settings source = .ok plan) :
    (∀ c ∈ plan.sql.toList, isAllowed c) ∧ Inside '\'' "|| ' ' ||".toList plan.sql.toList ∧
      ¬ "--".toList <:+: plan.sql.toList ∧ Balanced plan.sql.toList := by
  have safe := compile_safe compiled
  exact ⟨safe.allowed, safe.quotes, safe.noDoubleDash, safe.balanced⟩

/-- A quote, a comment and a bracket in a string do not get out of it. -/
theorem hostile_name_safe :
    ∃ plan, compile .standard "Player p = \"x' OR 1=1 -- (\" get games" = .ok plan ∧
      plan.parameters = [.string "x' OR 1=1 -- ("] ∧
      ¬ "--".toList <:+: plan.sql.toList ∧ Balanced plan.sql.toList := by
  have values : (compile .standard "Player p = \"x' OR 1=1 -- (\" get games").map
      Plan.parameters = .ok [.string "x' OR 1=1 -- ("] := by
    decide +kernel
  cases compiled : compile .standard "Player p = \"x' OR 1=1 -- (\" get games" with
  | error fault =>
    rw [compiled] at values
    cases values
  | ok plan =>
    rw [compiled] at values
    obtain ⟨_, _, comment, brackets⟩ := compiled_text_lexically_safe compiled
    exact ⟨plan, rfl, Except.ok.inj values, comment, brackets⟩

end BoxScore
