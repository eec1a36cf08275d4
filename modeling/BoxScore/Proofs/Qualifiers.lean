import BoxScore.Proofs.Placeholders
import BoxScore.Proofs.TokenClasses

/- The words that stand in front of the points of a text. In the text of a term over names
   that are words they are the tables whose columns the term reads, and nothing else. -/
namespace BoxScore.Sql

open Token

def isBreak (c : Char) : Bool := !isNameChar c && c != '.'

/-- The words in front of the points of a text, where `word` stands in front of the text. -/
def qualifiersAfter (word : List Char) : List Char → List String
  | [] => []
  | c :: cs =>
    if c = '.' then String.ofList word :: qualifiersAfter [] cs
    else if isNameChar c then qualifiersAfter (word ++ [c]) cs
    else qualifiersAfter [] cs

def qualifiers (text : String) : List String := qualifiersAfter [] text.toList

theorem qualifiersAfter_of_not_mem {cs : List Char} (pointless : '.' ∉ cs) (word : List Char) :
    qualifiersAfter word cs = [] := by
  induction cs generalizing word with
  | nil => rfl
  | cons c cs ih =>
    simp only [List.mem_cons, not_or] at pointless
    rw [qualifiersAfter, if_neg (Ne.symm pointless.1)]
    split
    · exact ih pointless.2 _
    · exact ih pointless.2 _

theorem qualifiersAfter_append {ds : List Char} (stop : ds.head?.all isBreak)
    (word cs : List Char) :
    qualifiersAfter word (cs ++ ds) = qualifiersAfter word cs ++ qualifiersAfter [] ds := by
  induction cs generalizing word with
  | nil =>
    cases ds with
    | nil => rfl
    | cons d ds =>
      have other : isNameChar d = false ∧ d ≠ '.' := by simpa [isBreak] using stop
      simp [qualifiersAfter, other.1, other.2]
  | cons c cs ih =>
    rw [List.cons_append, qualifiersAfter, qualifiersAfter]
    split
    · rw [ih, List.cons_append]
    · split
      · exact ih _
      · exact ih _

theorem qualifiersAfter_word {cs : List Char} (chars : cs.all isNameChar)
    (word ds : List Char) :
    qualifiersAfter word (cs ++ '.' :: ds) =
      String.ofList (word ++ cs) :: qualifiersAfter [] ds := by
  induction cs generalizing word with
  | nil => simp [qualifiersAfter]
  | cons c cs ih =>
    simp only [List.all_cons, Bool.and_eq_true] at chars
    have other : c ≠ '.' := by
      rintro rfl
      exact absurd chars.1 (by decide)
    rw [List.cons_append, qualifiersAfter, if_neg other, if_pos chars.1, ih chars.2]
    simp

/-- What has no point and ends with a break says nothing about what follows. -/
theorem qualifiersAfter_skip {cs : List Char} (pointless : '.' ∉ cs)
    (stop : cs.getLast?.any isBreak) (word ds : List Char) :
    qualifiersAfter word (cs ++ ds) = qualifiersAfter [] ds := by
  rcases List.eq_nil_or_concat cs with rfl | ⟨front, d, rfl⟩
  · simp at stop
  · have ended : isBreak d := by simpa using stop
    have other : isNameChar d = false ∧ d ≠ '.' := by simpa [isBreak] using ended
    have clear : '.' ∉ front := fun member => pointless (by simp [member])
    rw [List.concat_eq_append, List.append_assoc, List.singleton_append,
      qualifiersAfter_append (by simpa using ended), qualifiersAfter_of_not_mem clear]
    simp [qualifiersAfter, other.1, other.2]

theorem qualifiers_of_not_mem {text : String} (pointless : '.' ∉ text.toList) :
    qualifiers text = [] := qualifiersAfter_of_not_mem pointless []

theorem qualifiers_followed (text : String) {back : String} (pointless : '.' ∉ back.toList)
    (stop : back.toList.head?.all isBreak) : qualifiers (text ++ back) = qualifiers text := by
  rw [qualifiers, String.toList_append, qualifiersAfter_append stop,
    qualifiersAfter_of_not_mem pointless, List.append_nil, qualifiers]

theorem qualifiers_preceded {front : String} (pointless : '.' ∉ front.toList)
    (stop : front.toList.getLast?.any isBreak) (text : String) :
    qualifiers (front ++ text) = qualifiers text := by
  rw [qualifiers, String.toList_append, qualifiersAfter_skip pointless stop, qualifiers]

theorem qualifiers_between (left right : String) {middle : String}
    (pointless : '.' ∉ middle.toList) (starts : middle.toList.head?.any isBreak)
    (ends : middle.toList.getLast?.any isBreak) :
    qualifiers (left ++ middle ++ right) = qualifiers left ++ qualifiers right := by
  have stop : (middle ++ right).toList.head?.all isBreak := by
    cases chars : middle.toList with
    | nil => simp [chars] at starts
    | cons d ds => simpa [chars] using starts
  rw [String.append_assoc, qualifiers, String.toList_append, qualifiersAfter_append stop,
    String.toList_append, qualifiersAfter_skip pointless ends, qualifiers, qualifiers]

theorem qualifiers_column {table : String} (word : isWord table) (name : String) :
    qualifiers (table ++ "." ++ name) = table :: qualifiers name := by
  have split : (table ++ "." ++ name).toList = table.toList ++ '.' :: name.toList := by simp
  rw [qualifiers, split, qualifiersAfter_word word, List.nil_append, String.ofList_toList,
    qualifiers]

theorem word_pointless {text : String} (word : isWord text) : '.' ∉ text.toList :=
  fun member => absurd (List.all_eq_true.mp word '.' member) (by decide)

theorem qualifiers_fullName {table : String} (word : isWord table) :
    qualifiers ("TRIM(" ++ table ++ ".firstName || ' ' || " ++ table ++ ".lastName)") =
      [table, table] := by
  have split : "TRIM(" ++ table ++ ".firstName || ' ' || " ++ table ++ ".lastName)" =
      "TRIM(" ++ (table ++ "." ++ ("firstName || ' ' || " ++ (table ++ "." ++ "lastName)"))) := by
    have first : ".firstName || ' ' || " = "." ++ "firstName || ' ' || " := rfl
    have second : ".lastName)" = "." ++ "lastName)" := rfl
    rw [first, second]
    simp only [String.append_assoc]
  rw [split, qualifiers_preceded (by decide) (by decide), qualifiers_column word,
    qualifiers_preceded (by decide) (by decide), qualifiers_column word,
    qualifiers_of_not_mem (by decide)]

theorem Term.mem_qualifiers_text {α : Type} {hole : α → String}
    (holes : ∀ value, '.' ∉ (hole value).toList) (t : Term α) (words : ∀ n ∈ t.names, isWord n)
    (table : String) : table ∈ qualifiers (t.text hole) ↔ table ∈ t.tables := by
  induction t with
  | column owner name =>
    have first := words owner (by simp [names])
    have second := words name (by simp [names])
    rw [text, qualifiers_column first, qualifiers_of_not_mem (word_pointless second), tables]
  | word text =>
    rw [Term.text, qualifiers_of_not_mem (word_pointless (words text (by simp [names]))), tables]
  | parameter value => rw [text, qualifiers_of_not_mem (holes value), tables]
  | fullName owner =>
    rw [text, qualifiers_fullName (words owner (by simp [names])), tables]
    simp
  | cast t type ih =>
    rw [text_cast, qualifiers_followed _ (by cases type <;> decide) (by cases type <;> decide),
      qualifiers_preceded (by decide) (by decide)]
    exact ih words
  | aggregate f t ih =>
    rw [text, qualifiers_followed _ (by decide) (by decide),
      qualifiers_preceded (by cases f <;> decide) (by cases f <;> decide)]
    exact ih words
  | countRows =>
    rw [text, qualifiers_of_not_mem (by decide), tables]
  | distance l r left right =>
    obtain ⟨wordsLeft, wordsRight⟩ := List.forall_mem_append.mp words
    rw [text_distance, qualifiers_followed _ (by decide) (by decide),
      qualifiers_preceded (by decide) (by decide),
      qualifiers_between _ _ (by decide) (by decide) (by decide), tables, List.mem_append,
      List.mem_append, left wordsLeft, right wordsRight]
  | compare l op r left right =>
    obtain ⟨wordsLeft, wordsRight⟩ := List.forall_mem_append.mp words
    rw [text_compare, qualifiers_between _ _ (by cases op <;> decide) (by cases op <;> decide)
      (by cases op <;> decide), tables, List.mem_append, List.mem_append, left wordsLeft,
      right wordsRight]
  | both l r left right =>
    obtain ⟨wordsLeft, wordsRight⟩ := List.forall_mem_append.mp words
    rw [text, qualifiers_between _ _ (by decide) (by decide) (by decide), tables, List.mem_append,
      List.mem_append, left wordsLeft, right wordsRight]
  | either l r left right =>
    obtain ⟨wordsLeft, wordsRight⟩ := List.forall_mem_append.mp words
    rw [text, qualifiers_between _ _ (by decide) (by decide) (by decide), tables, List.mem_append,
      List.mem_append, left wordsLeft, right wordsRight]
  | group t ih =>
    rw [text, qualifiers_followed _ (by decide) (by decide),
      qualifiers_preceded (by decide) (by decide)]
    exact ih words
  | always => rw [text, qualifiers_of_not_mem (by decide), tables]

theorem tables_numbered {α : Type} (t : Term α) (bound : Nat) :
    (t.numbered bound).tables = t.tables := by
  induction t generalizing bound with
  | column | word | parameter | fullName | countRows | always => rfl
  | cast t _ ih => exact ih bound
  | aggregate _ t ih => exact ih bound
  | group t ih => exact ih bound
  | distance l r left right => simp [Term.numbered, Term.tables, left, right]
  | compare l op r left right => simp [Term.numbered, Term.tables, left, right]
  | both l r left right => simp [Term.numbered, Term.tables, left, right]
  | either l r left right => simp [Term.numbered, Term.tables, left, right]

theorem placeholder_pointless (n : Nat) : '.' ∉ (Term.placeholder n).toList := by
  intro member
  simp only [Term.placeholder, String.toList_append, List.mem_append] at member
  rcases member with mark | digits
  · exact absurd mark (by decide)
  · exact absurd (toString_isDigit n '.' digits) (by decide)

theorem Term.mem_qualifiers_numbered {α : Type} (t : Term α) (words : ∀ n ∈ t.names, isWord n)
    (bound : Nat) (table : String) :
    table ∈ qualifiers ((t.numbered bound).text placeholder) ↔ table ∈ t.tables := by
  rw [mem_qualifiers_text placeholder_pointless, tables_numbered]
  rwa [names_numbered]

theorem Item.mem_qualifiers_text (i : Item) (words : ∀ n ∈ i.names, isWord n) (table : String) :
    table ∈ qualifiers i.text ↔ table ∈ i.term.tables := by
  obtain ⟨label, term⟩ := List.forall_mem_append.mp words
  have own : table ∈ qualifiers (Fixed.text i.term) ↔ table ∈ i.term.tables :=
    Term.mem_qualifiers_text (fun value => value.elim) i.term term table
  unfold Item.text
  split
  · rename_i name same
    have last : '.' ∉ (" AS " ++ name).toList := by
      have clear := word_pointless (label name (by simp [same]))
      simp [clear]
    rw [String.append_assoc, qualifiers_followed _ last (by simp; decide)]
    exact own
  · exact own

end BoxScore.Sql
