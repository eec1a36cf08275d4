import BoxScore.Console.Run

/- Runs over several files and sessions of several lines. Each file and each line is
   reported as if it were alone: nothing that comes before it shows in what is printed for
   it, and a run went well exactly if all of its parts did. -/
namespace BoxScore.Console

open Text

namespace Outcome

@[simp] theorem append_out (a b : Outcome) : (a ++ b).out = a.out ++ b.out := rfl

@[simp] theorem append_err (a b : Outcome) : (a ++ b).err = a.err ++ b.err := rfl

@[simp] theorem append_ok (a b : Outcome) : (a ++ b).ok = (a.ok && b.ok) := rfl

theorem append_assoc (a b c : Outcome) : a ++ b ++ c = a ++ (b ++ c) := by
  have out : (a ++ b ++ c).out = (a ++ (b ++ c)).out := String.append_assoc
  have err : (a ++ b ++ c).err = (a ++ (b ++ c)).err := String.append_assoc
  have ok : (a ++ b ++ c).ok = (a ++ (b ++ c)).ok := Bool.and_assoc ..
  exact (mk.injEq ..).mpr ⟨out, err, ok⟩

@[simp] theorem inOrder_nil : inOrder [] = silent := rfl

@[simp] theorem inOrder_cons (o : Outcome) (os : List Outcome) :
    inOrder (o :: os) = o ++ inOrder os := rfl

theorem inOrder_out (os : List Outcome) : (inOrder os).out = String.join (os.map out) := by
  induction os with
  | nil => rfl
  | cons o os ih => rw [inOrder_cons, append_out, ih, List.map_cons, String.join_cons]

theorem inOrder_err (os : List Outcome) : (inOrder os).err = String.join (os.map err) := by
  induction os with
  | nil => rfl
  | cons o os ih => rw [inOrder_cons, append_err, ih, List.map_cons, String.join_cons]

theorem inOrder_ok (os : List Outcome) : (inOrder os).ok = os.all ok := by
  induction os with
  | nil => rfl
  | cons o os ih => rw [inOrder_cons, append_ok, ih, List.all_cons]

end Outcome

/- Reports. -/

def LacksQuotes (source : String) (fault : Fault) : Prop :=
  (∃ expected found place, fault = .unexpectedToken expected found place) ∧
    '=' ∈ source.toList ∧ '"' ∉ source.toList

/-- What a report prints. A plan goes to the output, as a text with a line for the season
    that its source asks for, or as JSON; a fault goes to the errors, with a hint behind it
    where quotes are missing. -/
inductive Prints (source : String) : Format → Except Fault Plan → Outcome → Prop where
  | text (plan : Plan) (timeless : season? source = none) :
      Prints source .text (.ok plan) (.say (plan.text ++ "\n"))
  | seasonal (plan : Plan) {s : Season} (asked : season? source = some s) :
      Prints source .text (.ok plan) (.say (plan.text ++ "\n" ++
        ("  season: " ++ s.name ++ " (" ++ s.first.iso ++ " to " ++ s.last.iso ++ ")\n")))
  | json (plan : Plan) : Prints source .json (.ok plan) (.say (plan.prettyJson ++ "\n"))
  | fault (format : Format) {fault : Fault} (quoted : ¬ LacksQuotes source fault) :
      Prints source format (.error fault) (.fail ("error: " ++ fault.message ++ "\n"))
  | hint (format : Format) {fault : Fault} (lacks : LacksQuotes source fault) :
      Prints source format (.error fault) (.fail ("error: " ++ fault.message ++ "\n" ++
        "hint: names must be in quotes, e.g. Player p = \"Kobe Bryant\"\n"))

theorem quoteHint_of_lacks {source : String} {fault : Fault} (lacks : LacksQuotes source fault) :
    quoteHint source fault =
      "hint: names must be in quotes, e.g. Player p = \"Kobe Bryant\"\n" := by
  obtain ⟨⟨_, _, _, rfl⟩, equals, unquoted⟩ := lacks
  simp [quoteHint, equals, unquoted]

theorem quoteHint_of_quoted {source : String} {fault : Fault}
    (quoted : ¬ LacksQuotes source fault) : quoteHint source fault = "" := by
  unfold quoteHint
  split
  · apply if_neg
    intro lacks
    simp only [Bool.and_eq_true, Bool.not_eq_true', List.contains_iff_mem] at lacks
    exact quoted ⟨⟨_, _, _, rfl⟩, lacks.1, by simpa using lacks.2⟩
  · rfl

theorem reportResult_prints (format : Format) (source : String) (result : Except Fault Plan) :
    Prints source format result (reportResult format source result) := by
  cases result with
  | ok plan =>
    cases format with
    | text =>
      cases asked : season? source with
      | none => simpa [reportResult, reportPlan, seasonLine, asked] using Prints.text plan asked
      | some s =>
        simpa [reportResult, reportPlan, seasonLine, asked] using Prints.seasonal plan asked
    | json => exact .json plan
  | error fault =>
    by_cases lacks : LacksQuotes source fault
    · rw [reportResult, quoteHint_of_lacks lacks]
      exact .hint format lacks
    · rw [reportResult, quoteHint_of_quoted lacks, String.append_empty]
      exact .fault format lacks

theorem Prints.unique {source : String} {format : Format} {result : Except Fault Plan}
    {o p : Outcome} (first : Prints source format result o) (second : Prints source format result p) :
    o = p := by
  cases first <;> cases second <;> simp_all

theorem reportResult_eq_iff {format : Format} {source : String} {result : Except Fault Plan}
    {o : Outcome} : reportResult format source result = o ↔ Prints source format result o := by
  constructor
  · rintro rfl
    exact reportResult_prints format source result
  · exact (reportResult_prints format source result).unique

theorem Prints.ok_iff {source : String} {format : Format} {result : Except Fault Plan}
    {o : Outcome} (printed : Prints source format result o) :
    o.ok ↔ ∃ plan, result = .ok plan := by
  cases printed <;> simp [Outcome.say, Outcome.fail]

theorem report_ok_iff (settings : Settings) (format : Format) (source : String) :
    (report settings format source).ok ↔ ∃ plan, compile settings source = .ok plan :=
  (reportResult_prints format source (compile settings source)).ok_iff

/- Runs over files. -/

section Files

variable (settings : Settings) (format : Format) (files : List (String × FileText))

def whenRead (text : String → String → String) : String × FileText → String
  | (path, .ok source) => text path source
  | (_, .error _) => ""

def refusal : String × FileText → String
  | (_, .ok _) => ""
  | (path, .error fault) => path ++ ": " ++ fault.message ++ "\n"

def Compiles (file : String × FileText) : Prop :=
  ∃ source plan, file.2 = .ok source ∧ compile settings source = .ok plan

theorem mem_readable {path source : String} :
    (path, source) ∈ readable files ↔ (path, .ok source) ∈ files := by
  rw [readable, List.mem_filterMap]
  constructor
  · rintro ⟨⟨other, text⟩, member, read⟩
    cases text with
    | ok _ =>
      cases read
      exact member
    | error _ => cases read
  · intro member
    exact ⟨_, member, rfl⟩

theorem join_readable (text : String → String → String) :
    String.join ((readable files).map fun file => text file.1 file.2) =
      String.join (files.map (whenRead text)) := by
  induction files with
  | nil => rfl
  | cons file files ih =>
    obtain ⟨path, contents⟩ := file
    cases contents with
    | ok source => simpa [readable, whenRead] using ih
    | error fault => simpa [readable, whenRead] using ih

theorem reportFiles_eq :
    reportFiles settings format files = unreadable files ++
      .inOrder ((readable files).map fun file =>
        .say ("== " ++ file.1 ++ "\n") ++ report settings format file.2) := by
  have paired : ∀ sources : List (String × String),
      sources.zip (compileBatch settings (sources.map Prod.snd)) =
        sources.map fun file => (file, compile settings file.2) := by
    intro sources
    rw [compileBatch, List.map_map]
    exact List.map_prod_left_eq_zip.symm
  rw [reportFiles]
  simp only [paired, List.map_map]
  rfl

theorem unreadable_out : (unreadable files).out = "" := by
  induction files with
  | nil => rfl
  | cons file files ih =>
    obtain ⟨path, text⟩ := file
    cases text <;> simpa [unreadable, Outcome.silent, Outcome.fail] using ih

theorem unreadable_err : (unreadable files).err = String.join (files.map refusal) := by
  rw [unreadable, Outcome.inOrder_err, List.map_map]
  congr 2
  funext file
  obtain ⟨path, text⟩ := file
  cases text <;> rfl

theorem unreadable_ok_iff :
    (unreadable files).ok ↔ ∀ file ∈ files, ∃ source, file.2 = .ok source := by
  rw [unreadable, Outcome.inOrder_ok, List.all_map, List.all_eq_true]
  apply forall₂_congr
  intro file _
  obtain ⟨path, text⟩ := file
  cases text <;> simp [Outcome.silent, Outcome.fail]

theorem reportFiles_out :
    (reportFiles settings format files).out = String.join (files.map (whenRead fun path source =>
      "== " ++ path ++ "\n" ++ (report settings format source).out)) := by
  rw [reportFiles_eq, Outcome.append_out, unreadable_out, Outcome.inOrder_out, List.map_map,
    ← join_readable]
  simp only [String.empty_append]
  rfl

theorem reportFiles_err :
    (reportFiles settings format files).err = String.join (files.map refusal) ++
      String.join (files.map (whenRead fun _ source => (report settings format source).err)) := by
  rw [reportFiles_eq, Outcome.append_err, unreadable_err, Outcome.inOrder_err, List.map_map,
    ← join_readable]
  congr 3

theorem reportFiles_ok_iff :
    (reportFiles settings format files).ok ↔ ∀ file ∈ files, Compiles settings file := by
  have reported : ∀ file : String × String,
      (Outcome.say ("== " ++ file.1 ++ "\n") ++ report settings format file.2).ok ↔
        ∃ plan, compile settings file.2 = .ok plan := by
    intro file
    rw [← report_ok_iff settings format file.2, Outcome.append_ok]
    rfl
  rw [reportFiles_eq, Outcome.append_ok, Bool.and_eq_true, unreadable_ok_iff, Outcome.inOrder_ok,
    List.all_map, List.all_eq_true]
  constructor
  · rintro ⟨read, good⟩ ⟨path, text⟩ member
    obtain ⟨source, rfl⟩ := read _ member
    obtain ⟨plan, compiled⟩ :=
      (reported (path, source)).mp (good _ ((mem_readable files).mpr member))
    exact ⟨source, plan, rfl, compiled⟩
  · intro all
    refine ⟨fun file member => ?_, fun ⟨path, source⟩ member => (reported _).mpr ?_⟩
    · obtain ⟨source, _, read, _⟩ := all file member
      exact ⟨source, read⟩
    · obtain ⟨_, plan, read, compiled⟩ := all _ ((mem_readable files).mp member)
      cases read
      exact ⟨plan, compiled⟩

structure FilesReported : Prop where
  out : (reportFiles settings format files).out =
    String.join (files.map (whenRead fun path source =>
      "== " ++ path ++ "\n" ++ (report settings format source).out))
  err : (reportFiles settings format files).err = String.join (files.map refusal) ++
    String.join (files.map (whenRead fun _ source => (report settings format source).err))
  ok : (reportFiles settings format files).ok ↔ ∀ file ∈ files, Compiles settings file

end Files

/- Sessions. -/

def Leaves (line : String) : Prop := trim line = "exit" ∨ trim line = "quit"

def IsSource (line : String) : Prop := trim line ≠ "" ∧ trim line ≠ "help" ∧ ¬ Leaves line

/-- The lines from the one on that ends a session; the flag says whether it was a text. -/
inductive Ending : List (Option String) → Bool → Prop where
  | input : Ending [] true
  | left {line : String} (word : Leaves line) (rest : List (Option String)) :
      Ending (some line :: rest) true
  | broken (rest : List (Option String)) : Ending (none :: rest) false

instance (line : String) : Decidable (Leaves line) := inferInstanceAs (Decidable (_ ∨ _))

instance (line : String) : Decidable (IsSource line) := inferInstanceAs (Decidable (_ ∧ _))

section Lines

variable (settings : Settings) (format : Format)

/-- What is printed for a line that does not end the session: the examples for `help`,
    nothing for a blank line, and for a source what its report prints. -/
def reply (line : String) : Outcome :=
  if IsSource line then report settings format (trim line)
  else if trim line = "help" then .say examplesText
  else .silent

theorem answer?_of_leaves {line : String} (word : Leaves line) :
    answer? settings format line = none := by
  unfold answer?
  rcases word with exit | quit
  · rw [exit]
    rfl
  · rw [quit]
    rfl

theorem answer?_of_stays {line : String} (stays : ¬ Leaves line) :
    answer? settings format line = some (reply settings format line) := by
  unfold answer? reply IsSource
  unfold Leaves at stays ⊢
  split <;> simp_all

def transcript (seen : List String) (good : Bool) : Outcome :=
  .inOrder (seen.map fun line => .say prompt ++ reply settings format line) ++ .say prompt ++
    (if good then .silent else unreadableLine)

structure Parted (lines : List (Option String)) (seen : List String)
    (ending : List (Option String)) (good : Bool) : Prop where
  split : lines = seen.map some ++ ending
  stay : ∀ line ∈ seen, ¬ Leaves line
  ends : Ending ending good

theorem exists_parted (lines : List (Option String)) :
    ∃ seen ending good, Parted lines seen ending good := by
  induction lines with
  | nil => exact ⟨[], [], true, rfl, by simp, .input⟩
  | cons line lines ih =>
    cases line with
    | none => exact ⟨[], _, false, rfl, by simp, .broken lines⟩
    | some line =>
      by_cases word : Leaves line
      · exact ⟨[], _, true, rfl, by simp, .left word lines⟩
      · obtain ⟨seen, ending, good, split, stay, ends⟩ := ih
        refine ⟨line :: seen, ending, good, by rw [split]; rfl, ?_, ends⟩
        exact List.forall_mem_cons.mpr ⟨word, stay⟩

theorem answers_ending {ending : List (Option String)} {good : Bool}
    (ends : Ending ending good) :
    answers settings format ending = transcript settings format [] good := by
  cases ends with
  | input => rfl
  | left word rest =>
    rw [answers, spoken, answer?_of_leaves settings format word]
    rfl
  | broken rest => rfl

theorem answers_step {line : String} (stays : ¬ Leaves line) (lines : List (Option String)) :
    answers settings format (some line :: lines) =
      .say prompt ++ (reply settings format line ++ answers settings format lines) := by
  rw [answers, spoken, answer?_of_stays settings format stays]
  rfl

theorem answers_eq_transcript {lines ending : List (Option String)} {seen : List String}
    {good : Bool} (parted : Parted lines seen ending good) :
    answers settings format lines = transcript settings format seen good := by
  obtain ⟨rfl, stay, ends⟩ := parted
  induction seen with
  | nil => exact answers_ending settings format ends
  | cons line seen ih =>
    rw [List.forall_mem_cons] at stay
    rw [List.map_cons, List.cons_append, answers_step settings format stay.1, ih stay.2]
    simp only [transcript, List.map_cons, Outcome.inOrder_cons, Outcome.append_assoc]

theorem transcript_out (seen : List String) (good : Bool) :
    (transcript settings format seen good).out =
      String.join (seen.map fun line => prompt ++ (reply settings format line).out) ++ prompt := by
  have ended : (if good then Outcome.silent else unreadableLine).out = "" := by
    cases good <;> rfl
  rw [transcript, Outcome.append_out, Outcome.append_out, Outcome.inOrder_out, List.map_map,
    ended, String.append_empty]
  rfl

theorem transcript_err (seen : List String) (good : Bool) :
    (transcript settings format seen good).err =
      String.join (seen.map fun line => (reply settings format line).err) ++
        (if good then "" else unreadableLine.err) := by
  have prompted : (fun line => (Outcome.say prompt ++ reply settings format line).err) =
      fun line => (reply settings format line).err := by
    funext line
    exact String.empty_append
  rw [transcript, Outcome.append_err, Outcome.append_err, Outcome.inOrder_err, List.map_map,
    Function.comp_def, prompted]
  cases good
  · exact congrArg (· ++ unreadableLine.err) String.append_empty
  · exact congrArg (· ++ "") String.append_empty

theorem transcript_ok (seen : List String) (good : Bool) :
    (transcript settings format seen good).ok =
      (seen.all (fun line => (reply settings format line).ok) && good) := by
  rw [transcript, Outcome.append_ok, Outcome.append_ok, Outcome.inOrder_ok, List.all_map]
  cases good
  · simp [unreadableLine, Outcome.fail]
  · simp [Outcome.silent, Outcome.say, Function.comp_def]

theorem reply_fails_iff (line : String) :
    (reply settings format line).ok = false ↔
      IsSource line ∧ ∃ fault, compile settings (trim line) = .error fault := by
  unfold reply
  by_cases source : IsSource line
  · rw [if_pos source, ← Bool.not_eq_true, report_ok_iff]
    cases compile settings (trim line) <;> simp [source]
  · rw [if_neg source]
    split <;> simp [source, Outcome.say, Outcome.silent]

/-- What a session prints, told line by line. Of the lines from its end on, only the first
    has an effect. -/
structure Answered (lines : List (Option String)) (seen : List String)
    (ending : List (Option String)) (good : Bool) : Prop where
  out : (session settings format lines).out = greeting ++
    String.join (seen.map fun line => prompt ++ (reply settings format line).out) ++ prompt
  err : (session settings format lines).err =
    String.join (seen.map fun line => (reply settings format line).err) ++
      (if good then "" else unreadableLine.err)
  reported : ∀ line ∈ seen, IsSource line →
    reply settings format line = report settings format (trim line)
  failed : (session settings format lines).ok = false ↔ good = false ∨
    ∃ line ∈ seen, IsSource line ∧ ∃ fault, compile settings (trim line) = .error fault
  unseen : ∀ last rest, ending = last :: rest →
    session settings format (seen.map some ++ [last]) = session settings format lines

theorem ending_first {last : Option String} {rest : List (Option String)} {good : Bool}
    (ends : Ending (last :: rest) good) : Ending [last] good := by
  cases ends with
  | left word => exact .left word []
  | broken => exact .broken []

theorem answered_of_parted {lines ending : List (Option String)} {seen : List String} {good : Bool}
    (parted : Parted lines seen ending good) : Answered settings format lines seen ending good := by
  have whole := answers_eq_transcript settings format parted
  constructor
  · rw [session, Outcome.append_out, whole, transcript_out, String.append_assoc]
    rfl
  · rw [session, Outcome.append_err, whole, transcript_err]
    exact String.empty_append
  · intro line _ source
    rw [reply, if_pos source]
  · rw [session, Outcome.append_ok, whole, transcript_ok]
    simp only [Outcome.say, Bool.true_and, Bool.and_eq_false_iff, List.all_eq_false,
      Bool.not_eq_true, reply_fails_iff]
    exact or_comm
  · rintro last rest rfl
    have short : Parted (seen.map some ++ [last]) seen [last] good :=
      ⟨rfl, parted.stay, ending_first parted.ends⟩
    rw [session, answers_eq_transcript settings format short, session, whole]

end Lines

/-- Of several files, and of the lines of a session, each is reported as if it were alone;
    a run over files fails exactly if one of them is not read or does not compile, and a
    session exactly if a line before its end does not compile or its end is no text. -/
theorem runs_isolated (settings : Settings) (format : Format) :
    (∀ files, FilesReported settings format files) ∧
      ∀ lines, ∃ seen ending good, Parted lines seen ending good ∧
        Answered settings format lines seen ending good := by
  constructor
  · intro files
    exact ⟨reportFiles_out settings format files, reportFiles_err settings format files,
      reportFiles_ok_iff settings format files⟩
  · intro lines
    obtain ⟨seen, ending, good, parted⟩ := exists_parted lines
    exact ⟨seen, ending, good, parted, answered_of_parted settings format parted⟩

end BoxScore.Console
