import BoxScore.Decimal.Reading
import BoxScore.Proofs.TokenClasses
import BoxScore.Query.Expression

/- What the texts of number tokens are read as: a row of digits is a whole number if it
   is in range, and digits with a point between them are always a decimal. -/
namespace BoxScore

open Token Text

def greatestInteger : Nat := 9223372036854775807

def greatestCount : Nat := 18446744073709551615

namespace Token.IsDigits

theorem all_isDigit {cs : List Char} (digits : IsDigits cs) : cs.all Char.isDigit := by
  simpa using digits.2

theorem not_mem {cs : List Char} (digits : IsDigits cs) {c : Char} (other : c.isDigit = false) :
    c ∉ cs := by
  intro member
  have digit := digits.2 c member
  simp [other] at digit

theorem cons_eq {cs : List Char} (digits : IsDigits cs) :
    ∃ c rest, cs = c :: rest ∧ c.isDigit ∧ ∀ d ∈ rest, d.isDigit := by
  obtain ⟨nonempty, all⟩ := digits
  cases cs with
  | nil => contradiction
  | cons c rest =>
    exact ⟨c, rest, rfl, all c (by simp), fun d member => all d (by simp [member])⟩

end Token.IsDigits

theorem readDigits_of_isDigits {cs : List Char} (digits : IsDigits cs) :
    readDigits cs = some (digitsValue cs) := by
  simp [readDigits, digits.1, digits.all_isDigit]

theorem readDigits_of_mem {cs : List Char} {c : Char} (member : c ∈ cs)
    (other : c.isDigit = false) : readDigits cs = none := by
  have notAll : cs.all Char.isDigit = false := by
    rw [List.all_eq_false]
    exact ⟨c, member, by simp [other]⟩
  simp [readDigits, notAll]

theorem splitSign_of_isDigit {c : Char} (cs : List Char) (digit : c.isDigit) :
    splitSign (c :: cs) = (false, c :: cs) := by
  unfold splitSign
  split
  · rename_i rest same
    cases same
    contradiction
  · rename_i rest same
    cases same
    contradiction
  · rfl

theorem readInt64_of_isDigits {text : String} (digits : IsDigits text.toList) :
    readInt64 text =
      if digitsValue text.toList ≤ greatestInteger then
        some (Int64.ofInt (digitsValue text.toList))
      else none := by
  obtain ⟨c, rest, shape, digit, _⟩ := digits.cons_eq
  have unsigned : splitSign text.toList = (false, text.toList) := by
    rw [shape]
    exact splitSign_of_isDigit rest digit
  have bound : Nat.pow 2 63 = greatestInteger + 1 := rfl
  simp only [readInt64, unsigned, readDigits_of_isDigits digits, bound, Nat.lt_succ_iff]
  simp

theorem readUInt64_of_isDigits {text : String} (digits : IsDigits text.toList) :
    readUInt64 text =
      if digitsValue text.toList ≤ greatestCount then
        some (UInt64.ofNat (digitsValue text.toList))
      else none := by
  have bound : Nat.pow 2 64 = greatestCount + 1 := rfl
  unfold readUInt64
  split
  · rename_i tail plus
    have member : '+' ∈ text.toList := by simp [plus]
    exact absurd member (digits.not_mem (by decide))
  · simp only [readDigits_of_isDigits digits, bound, Nat.lt_succ_iff]

theorem readUInt64_of_point {text : String} (point : '.' ∈ text.toList) :
    readUInt64 text = none := by
  unfold readUInt64
  split
  · rename_i tail plus
    have member : '.' ∈ tail := by simpa [plus] using point
    simp [readDigits_of_mem member (by decide)]
  · simp [readDigits_of_mem point (by decide)]

theorem readMagnitude_of_isDigits {whole part : List Char} (first : IsDigits whole)
    (second : IsDigits part) (negative : Bool) :
    Decimal.readMagnitude negative (whole ++ '.' :: part) =
      some (.ofDecimal negative (digitsValue (whole ++ part)) (-part.length)) := by
  have taken : (whole ++ '.' :: part).takeWhile Char.isDigit = whole := by
    rw [List.takeWhile_append_of_pos first.2]
    simp
  have dropped : (whole ++ '.' :: part).dropWhile Char.isDigit = '.' :: part := by
    rw [List.dropWhile_append_of_pos first.2]
    simp
  have fraction : part.takeWhile Char.isDigit = part := List.takeWhile_eq_self_iff.mpr second.2
  have nothing : part.dropWhile Char.isDigit = [] := List.dropWhile_eq_nil_iff.mpr second.2
  simp [Decimal.readMagnitude, taken, dropped, Decimal.splitPoint, fraction, nothing, first.1,
    Decimal.readPower]

/-- Digits on both sides of a point are the number nearest to what they denote. -/
theorem decimal_read_of_isDigits {text : String} {whole part : List Char}
    (parts : text.toList = whole ++ '.' :: part) (first : IsDigits whole)
    (second : IsDigits part) :
    Decimal.read text =
      some (.ofDecimal false (digitsValue (whole ++ part)) (-part.length)) := by
  obtain ⟨c, rest, shape, digit, _⟩ := first.cons_eq
  have unsigned : splitSign text.toList = (false, text.toList) := by
    rw [parts, shape]
    exact splitSign_of_isDigit _ digit
  -- None of the words for infinity and for no number has a point in it.
  have point : '.' ∈ text.toList.map Char.toLower := by
    rw [parts]
    simp only [List.map_append, List.map_cons, List.mem_append, List.mem_cons]
    exact Or.inr (Or.inl (by decide))
  have noWord : ∀ word : String, '.' ∉ word.toList →
      String.ofList (text.toList.map Char.toLower) ≠ word := by
    intro word absent same
    apply absent
    rw [← same]
    simpa using point
  simp only [Decimal.read, unsigned, noWord "inf" (by decide), noWord "infinity" (by decide),
    noWord "nan" (by decide), decide_false, Bool.or_self, Bool.false_eq_true, ↓reduceIte]
  rw [parts]
  exact readMagnitude_of_isDigits first second false

end BoxScore
