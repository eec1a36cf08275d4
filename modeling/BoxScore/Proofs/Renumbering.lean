import BoxScore.Proofs.Placeholders
import BoxScore.Text.Numeral

/- Moving the placeholders of a text to other numbers. The text of a term that is numbered
   on from one bound is that of the term numbered on from another, with each number moved
   by the difference; as long as no name has a question mark, this can be done on the text
   alone, however many digits the numbers have. -/
namespace BoxScore.Sql

/-- The text with `f` applied to the number of each placeholder. A placeholder is a question
    mark and the run of digits behind it. -/
def renumbered (f : Nat → Nat) : List Char → List Char
  | [] => []
  | c :: cs =>
    have := (List.dropWhile_sublist Char.isDigit (l := cs)).length_le
    if c = '?' then
      match Text.readDigits (cs.takeWhile Char.isDigit) with
      | some n => (Term.placeholder (f n)).toList ++ renumbered f (cs.dropWhile Char.isDigit)
      | none => c :: renumbered f cs
    else c :: renumbered f cs
termination_by cs => cs.length
decreasing_by all_goals simp only [List.length_cons]; omega

variable {f : Nat → Nat}

theorem renumbered_nil : renumbered f [] = [] := by
  rw [renumbered]

theorem renumbered_cons {c : Char} (other : c ≠ '?') (cs : List Char) :
    renumbered f (c :: cs) = c :: renumbered f cs := by
  rw [renumbered, if_neg other]

theorem renumbered_mark {cs : List Char} {n : Nat}
    (read : Text.readDigits (cs.takeWhile Char.isDigit) = some n) :
    renumbered f ('?' :: cs) =
      (Term.placeholder (f n)).toList ++ renumbered f (cs.dropWhile Char.isDigit) := by
  rw [renumbered, if_pos rfl, read]

theorem renumbered_bare {cs : List Char}
    (none : Text.readDigits (cs.takeWhile Char.isDigit) = none) :
    renumbered f ('?' :: cs) = '?' :: renumbered f cs := by
  rw [renumbered, if_pos rfl, none]

theorem renumbered_of_not_mem {cs : List Char} (clear : '?' ∉ cs) : renumbered f cs = cs := by
  induction cs with
  | nil => exact renumbered_nil
  | cons c cs ih =>
    simp only [List.mem_cons, not_or] at clear
    rw [renumbered_cons (Ne.symm clear.1), ih clear.2]

theorem digits_append {ds : List Char} (stop : ds.head?.all (!·.isDigit)) (cs : List Char) :
    (cs ++ ds).takeWhile Char.isDigit = cs.takeWhile Char.isDigit ∧
      (cs ++ ds).dropWhile Char.isDigit = cs.dropWhile Char.isDigit ++ ds := by
  cases ds with
  | nil => simp
  | cons d ds =>
    have other : d.isDigit = false := by simpa using stop
    refine ⟨takeWhile_append_of_stop other, ?_⟩
    rw [List.dropWhile_append, List.dropWhile_cons_of_neg (by simp [other])]
    split
    · rename_i all
      rw [List.isEmpty_iff.mp all, List.nil_append]
    · rfl

theorem renumbered_append (cs : List Char) {ds : List Char} (stop : ds.head?.all (!·.isDigit)) :
    renumbered f (cs ++ ds) = renumbered f cs ++ renumbered f ds := by
  fun_induction renumbered f cs with
  | case1 => rfl
  | case2 cs shorter n read ih =>
    obtain ⟨taken, dropped⟩ := digits_append stop cs
    rw [List.cons_append, renumbered_mark (by rw [taken]; exact read), dropped, ih,
      List.append_assoc]
  | case3 cs shorter none ih =>
    obtain ⟨taken, _⟩ := digits_append stop cs
    rw [List.cons_append, renumbered_bare (by rw [taken]; exact none), ih, List.cons_append]
  | case4 c cs shorter other ih =>
    rw [List.cons_append, renumbered_cons other, ih, List.cons_append]

theorem renumbered_append_of_not_mem {cs : List Char} (clear : '?' ∉ cs) (ds : List Char) :
    renumbered f (cs ++ ds) = cs ++ renumbered f ds := by
  induction cs with
  | nil => rfl
  | cons c cs ih =>
    simp only [List.mem_cons, not_or] at clear
    rw [List.cons_append, renumbered_cons (Ne.symm clear.1), ih clear.2, List.cons_append]

theorem readDigits_toString (n : Nat) : Text.readDigits (toString n).toList = some n := by
  have digits : (toString n).toList = Nat.toDigits 10 n := by simp
  have some : (toString n).toList ≠ [] := by
    rw [digits]
    exact Nat.toDigits_ne_nil
  have value : Text.digitsValue (toString n).toList = n := by
    rw [digits]
    exact Nat.ofDigitChars_toDigits (by decide) (by decide)
  have all : (toString n).toList.all Char.isDigit := List.all_eq_true.mpr (toString_isDigit n)
  rw [Text.readDigits, if_pos (Bool.and_eq_true_iff.mpr ⟨decide_eq_true some, all⟩), value]

theorem renumbered_placeholder (f : Nat → Nat) (n : Nat) :
    renumbered f (Term.placeholder n).toList = (Term.placeholder (f n)).toList := by
  have all := toString_isDigit n
  have read : Text.readDigits ((toString n).toList.takeWhile Char.isDigit) = some n := by
    rw [List.takeWhile_eq_self_iff.mpr all, readDigits_toString]
  have chars : (Term.placeholder n).toList = '?' :: (toString n).toList := by
    simp [Term.placeholder]
  rw [chars, renumbered_mark read, List.dropWhile_eq_nil_iff.mpr all, renumbered_nil,
    List.append_nil]

namespace Term

variable {α β : Type}

def map (f : α → β) : Term α → Term β
  | .column table name => .column table name
  | .word text => .word text
  | .parameter value => .parameter (f value)
  | .fullName table => .fullName table
  | .cast t type => .cast (t.map f) type
  | .aggregate g t => .aggregate g (t.map f)
  | .countRows => .countRows
  | .distance l r => .distance (l.map f) (r.map f)
  | .compare l op r => .compare (l.map f) op (r.map f)
  | .both l r => .both (l.map f) (r.map f)
  | .either l r => .either (l.map f) (r.map f)
  | .group t => .group (t.map f)
  | .always => .always

theorem numbered_moved (t : Term α) (j k before : Nat) :
    (t.numbered (j + before)).map (· + k - j) = t.numbered (k + before) := by
  induction t generalizing before with
  | column table name => rfl
  | word text => rfl
  | parameter value =>
    simp only [numbered, map, parameter.injEq]
    omega
  | fullName table => rfl
  | cast t type ih => simp only [numbered, map, ih]
  | aggregate g t ih => simp only [numbered, map, ih]
  | countRows => rfl
  | distance l r left right => simp only [numbered, map, left, Nat.add_assoc, right]
  | compare l op r left right => simp only [numbered, map, left, Nat.add_assoc, right]
  | both l r left right => simp only [numbered, map, left, Nat.add_assoc, right]
  | either l r left right => simp only [numbered, map, left, Nat.add_assoc, right]
  | group t ih => simp only [numbered, map, ih]
  | always => rfl

theorem renumbered_enclosed {front inner back moved : String} (before : '?' ∉ front.toList)
    (behind : '?' ∉ back.toList) (stop : back.toList.head?.all (!·.isDigit))
    (own : renumbered f inner.toList = moved.toList) :
    renumbered f (front ++ inner ++ back).toList = (front ++ moved ++ back).toList := by
  rw [String.toList_append, renumbered_append _ stop, renumbered_of_not_mem behind,
    String.toList_append, renumbered_append_of_not_mem before, own, String.toList_append,
    String.toList_append]

theorem renumbered_between {left middle right movedLeft movedRight : String}
    (clear : '?' ∉ middle.toList) (stop : middle.toList.head?.all (!·.isDigit))
    (some : middle ≠ "") (first : renumbered f left.toList = movedLeft.toList)
    (second : renumbered f right.toList = movedRight.toList) :
    renumbered f (left ++ middle ++ right).toList =
      (movedLeft ++ middle ++ movedRight).toList := by
  have onward : (middle ++ right).toList.head?.all (!·.isDigit) := by
    cases chars : middle.toList with
    | nil => exact absurd (String.toList_eq_nil_iff.mp chars) some
    | cons d ds => simpa [chars] using stop
  calc renumbered f (left ++ middle ++ right).toList
      = renumbered f left.toList ++ (middle.toList ++ renumbered f right.toList) := by
        rw [String.append_assoc, String.toList_append, renumbered_append _ onward,
          String.toList_append, renumbered_append_of_not_mem clear]
    _ = (movedLeft ++ middle ++ movedRight).toList := by
        rw [first, second, String.append_assoc, String.toList_append, String.toList_append]

theorem renumbered_text (t : Term Nat) (clear : ∀ n ∈ t.names, '?' ∉ n.toList) :
    renumbered f (t.text placeholder).toList = ((t.map f).text placeholder).toList := by
  induction t with
  | column table name => exact renumbered_of_not_mem (text_clear placeholder _ rfl clear)
  | word text => exact renumbered_of_not_mem (text_clear placeholder _ rfl clear)
  | parameter value => exact renumbered_placeholder f value
  | fullName table => exact renumbered_of_not_mem (text_clear placeholder _ rfl clear)
  | cast t type ih =>
    rw [map, text_cast, text_cast]
    exact renumbered_enclosed (by decide) (type_clear type) (by cases type <;> decide) (ih clear)
  | aggregate g t ih =>
    exact renumbered_enclosed (sqlName_clear g) (by decide) (by decide) (ih clear)
  | countRows => exact renumbered_of_not_mem (text_clear placeholder _ rfl clear)
  | distance l r left right =>
    obtain ⟨clearLeft, clearRight⟩ := List.forall_mem_append.mp clear
    have inner := renumbered_between (by decide : '?' ∉ " - ".toList) (by decide) (by decide)
      (left clearLeft) (right clearRight)
    rw [map, text_distance, text_distance]
    exact renumbered_enclosed (by decide) (by decide) (by decide) inner
  | compare l op r left right =>
    obtain ⟨clearLeft, clearRight⟩ := List.forall_mem_append.mp clear
    rw [map, text_compare, text_compare]
    exact renumbered_between (symbol_clear op) (by cases op <;> decide) (by cases op <;> decide)
      (left clearLeft) (right clearRight)
  | both l r left right =>
    obtain ⟨clearLeft, clearRight⟩ := List.forall_mem_append.mp clear
    exact renumbered_between (by decide) (by decide) (by decide) (left clearLeft)
      (right clearRight)
  | either l r left right =>
    obtain ⟨clearLeft, clearRight⟩ := List.forall_mem_append.mp clear
    exact renumbered_between (by decide) (by decide) (by decide) (left clearLeft)
      (right clearRight)
  | group t ih => exact renumbered_enclosed (by decide) (by decide) (by decide) (ih clear)
  | always => exact renumbered_of_not_mem (text_clear placeholder _ rfl clear)

end Term
end BoxScore.Sql
