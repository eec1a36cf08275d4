import BoxScore.Main
import BoxScore.Proofs.IsolatedRuns
import Mathlib

/- The loop of a session over bytes that are there already. It reads the lines into which
   the bytes split, prints what is spoken over them in order, and ends as the session does. -/
namespace BoxScore.Console

def fed : List UInt8 → IO (Option (UInt8 × List UInt8))
  | [] => return none
  | b :: bs => return some (b, bs)

def printAll (emit : Outcome → IO Unit) (verdict : Bool) : List Outcome → IO Bool
  | [] => return verdict
  | o :: os => do
    emit o
    printAll emit verdict os

theorem splitLines_eq_nil_iff {bs : List UInt8} : splitLines bs = [] ↔ bs = [] := by
  cases bs with
  | nil => simp [splitLines]
  | cons b bs =>
    rw [splitLines]
    split
    · simp
    · split <;> simp

theorem readBytes_nil (line : Array UInt8) :
    repeatM (readByte fed) (line, []) = pure (line, []) := by
  rw [repeatM_eq_of_monadTail]
  simp [repeatM.body, readByte, fed]

theorem readBytes_cons (b : UInt8) (bs : List UInt8) (line : Array UInt8) :
    repeatM (readByte fed) (line, b :: bs) =
      if b = 10 then pure (line.push b, bs) else repeatM (readByte fed) (line.push b, bs) := by
  rw [repeatM_eq_of_monadTail]
  by_cases feed : b = 10 <;> simp [repeatM.body, readByte, fed, feed]

/-- One line is read: the first of those into which the bytes split, and what is left
    splits into the others. -/
theorem readBytes_fed {bs first : List UInt8} {lines : List (List UInt8)}
    (split : splitLines bs = first :: lines) (line : Array UInt8) :
    first ≠ [] ∧ ∃ rest, repeatM (readByte fed) (line, bs) = pure (line ++ first, rest) ∧
      splitLines rest = lines := by
  induction bs generalizing first lines line with
  | nil => cases split
  | cons b bs ih =>
    rw [readBytes_cons]
    by_cases feed : b = 10
    · rw [splitLines, if_pos feed] at split
      cases split
      exact ⟨by simp, bs, by simp [feed], rfl⟩
    · rw [splitLines, if_neg feed] at split
      rw [if_neg feed]
      cases more : splitLines bs with
      | nil =>
        rw [more] at split
        cases split
        rw [splitLines_eq_nil_iff.mp more, readBytes_nil]
        exact ⟨by simp, [], by simp, rfl⟩
      | cons next others =>
        rw [more] at split
        cases split
        obtain ⟨_, rest, read, left⟩ := ih more (line.push b)
        exact ⟨by simp, rest, by simpa using read, left⟩

section Loop

variable (emit : Outcome → IO Unit) (settings : Settings) (format : Format)

theorem interact_end (ok : Bool) :
    interact fed emit settings format [] ok = printAll emit ok [.say prompt] := by
  rw [interact, repeatM_eq_of_monadTail]
  simp [repeatM.body, turn, nextLine, readBytes_nil, printAll]

section Turn

variable {bs line rest : List UInt8} (typed : line ≠ [])
  (read : nextLine fed bs = pure (line.toArray, rest))

include typed read

theorem interact_unreadable (broken : lineText line = none) (ok : Bool) :
    interact fed emit settings format bs ok =
      printAll emit false [.say prompt, unreadableLine] := by
  rw [interact, repeatM_eq_of_monadTail]
  simp [repeatM.body, turn, read, typed, broken, printAll]

variable {text : String} (told : lineText line = some text)

include told

theorem interact_left (leaves : answer? settings format text = none) (ok : Bool) :
    interact fed emit settings format bs ok = printAll emit ok [.say prompt] := by
  rw [interact, repeatM_eq_of_monadTail]
  simp [repeatM.body, turn, read, typed, told, leaves, printAll]

theorem interact_answered {outcome : Outcome} (answer : answer? settings format text = some outcome)
    (ok : Bool) : interact fed emit settings format bs ok = (do
      emit (.say prompt)
      emit outcome
      interact fed emit settings format rest (ok && outcome.ok)) := by
  rw [interact, repeatM_eq_of_monadTail]
  simp [repeatM.body, turn, read, typed, told, answer, interact]

end Turn

/-- The loop prints what is spoken over the lines of its input, and its verdict on them is
    that of the answers. -/
theorem interact_fed (bs : List UInt8) (ok : Bool) :
    interact fed emit settings format bs ok =
      printAll emit (ok && (answers settings format ((splitLines bs).map lineText)).ok)
        (spoken settings format ((splitLines bs).map lineText)) := by
  induction lines : splitLines bs generalizing bs ok with
  | nil =>
    rw [splitLines_eq_nil_iff.mp lines, interact_end]
    exact congrArg (printAll emit · [.say prompt]) (Bool.and_true ok).symm
  | cons first lines ih =>
    obtain ⟨typed, rest, read, rfl⟩ := readBytes_fed lines #[]
    have read : nextLine fed bs = pure (first.toArray, rest) := by simpa [nextLine] using read
    rw [List.map_cons]
    cases told : lineText first with
    | none =>
      rw [interact_unreadable emit settings format typed read told]
      exact congrArg (printAll emit · [.say prompt, unreadableLine]) (Bool.and_false ok).symm
    | some text =>
      rw [answers, spoken]
      cases answer : answer? settings format text with
      | none =>
        rw [interact_left emit settings format typed read told answer]
        exact congrArg (printAll emit · [.say prompt]) (Bool.and_true ok).symm
      | some outcome =>
        have onward := ih rest (ok && outcome.ok) rfl
        rw [Bool.and_assoc] at onward
        rw [interact_answered emit settings format typed read told answer, onward]
        rfl

/-- A run without a query and without files, over bytes that are all there: the greeting,
    prompts and answers are printed one after the other, and together they are the run. -/
theorem converse_fed {a : Arguments} (query : a.query = none) (files : a.files = [])
    (file : String → FileText) (input : List UInt8) :
    ∃ os, run (.run a) file input = .inOrder os ∧
      converse fed emit a.settings a.outputFormat input =
        printAll emit (run (.run a) file input).ok os := by
  have told : run (.run a) file input =
      session a.settings a.outputFormat ((splitLines input).map lineText) := by
    simp [run, query, files]
  refine ⟨.say greeting :: spoken a.settings a.outputFormat ((splitLines input).map lineText),
    told, ?_⟩
  rw [told, converse, interact_fed]
  rfl

end Loop

end BoxScore.Console
