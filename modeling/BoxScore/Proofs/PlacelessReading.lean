import BoxScore.Proofs.Repetition
import BoxScore.Proofs.Respacing
import Mathlib.Data.List.Forall2

/- Reading looks at the kinds and the texts of tokens and never at their places. So two
   texts with the same tokens in other layout are the same program, or are refused for
   the same reason at the same token. -/
namespace BoxScore

namespace Reading

open Token

abbrev Alike : List Token → List Token → Prop := List.Forall₂ fun t u => t.content = u.content

inductive Agree {α : Type} (same : α → α → Prop) :
    Attempt (α × List Token) → Attempt (α × List Token) → Prop where
  | read {a b : α} {ts us : List Token} (value : same a b) (rest : Alike ts us) :
      Agree same (.ok (a, ts)) (.ok (b, us))
  | refused {expected : String} {ts us : List Token} (rest : Alike ts us) :
      Agree same (.error ⟨expected, ts⟩) (.error ⟨expected, us⟩)

theorem Agree.bind {α β : Type} {same : α → α → Prop} {also : β → β → Prop}
    {x y : Attempt (α × List Token)} {f g : α × List Token → Attempt (β × List Token)}
    (first : Agree same x y) (next : ∀ a b ts us, x = .ok (a, ts) → same a b → Alike ts us →
      Agree also (f (a, ts)) (g (b, us))) : Agree also (x >>= f) (y >>= g) := by
  cases first with
  | read value rest => exact next _ _ _ _ rfl value rest
  | refused rest => exact .refused rest

theorem alike_of_contents {ts us : List Token} (same : ts.map content = us.map content) :
    Alike ts us := by
  have equal : List.Forall₂ Eq (ts.map content) (us.map content) := by
    rw [List.forall₂_eq_eq_eq, same]
  exact List.forall₂_map_left_iff.mp (List.forall₂_map_right_iff.mp equal)

theorem alike_tail {ts us : List Token} (alike : Alike ts us) : Alike ts.tail us.tail := by
  cases alike with
  | nil => exact .nil
  | cons _ rest => exact rest

theorem alike_headKind {ts us : List Token} (alike : Alike ts us) : headKind ts = headKind us := by
  cases alike with
  | nil => rfl
  | cons same _ => exact congrArg Prod.fst same

def AgreeOrAbsent {α : Type} (x y : Option (Attempt (α × List Token))) : Prop :=
  (x = none ∧ y = none) ∨ ∃ a b, x = some a ∧ y = some b ∧ Agree Eq a b

/-- Loops over items that agree do so, too: the induction is on the number of tokens. -/
theorem Repeats.agree {α : Type} {item? : List Token → Option (Attempt (α × List Token))}
    {loop : List Token → Attempt (List α × List Token)} (repeats : Repeats item? loop)
    (items : ∀ {ts us}, Alike ts us → AgreeOrAbsent (item? ts) (item? us))
    {ts us : List Token} (alike : Alike ts us) : Agree Eq (loop ts) (loop us) := by
  induction size : ts.length using Nat.strongRecOn generalizing ts us with
  | ind n ih =>
    rcases items alike with ⟨none, noneToo⟩ | ⟨x, y, some, someToo, agree⟩
    · rw [repeats.stop none, repeats.stop noneToo]
      exact .read rfl alike
    · rw [repeats.step some, repeats.step someToo]
      refine agree.bind ?_
      rintro a _ ts' us' rfl rfl rest
      have shorter := repeats.shortens some
      refine (ih _ (by omega) rest rfl).bind ?_
      rintro as _ ts us _ rfl last
      exact .read rfl last

theorem take_agree {ts us : List Token} (kind : Kind) (expected : String) (alike : Alike ts us) :
    Agree (fun t u => t.text = u.text) (take kind expected ts) (take kind expected us) := by
  cases alike with
  | nil => exact .refused .nil
  | @cons t u ts us same rest =>
    simp only [content, Prod.mk.injEq] at same
    simp only [take, same.1]
    split
    · exact .read same.2 rest
    · exact .refused (.cons (by simp [content, same]) rest)

theorem tokenExpr_alike {t u : Token} (same : t.content = u.content) :
    tokenExpr t = tokenExpr u := by
  simp only [content, Prod.mk.injEq] at same
  simp only [tokenExpr, same]

theorem operand_agree {ts us : List Token} (alike : Alike ts us) :
    Agree Eq (operand ts) (operand us) := by
  cases alike with
  | nil => exact .refused .nil
  | @cons t u ts us same rest =>
    simp only [operand, tokenExpr_alike same]
    split
    · exact .read rfl rest
    · exact .refused (.cons same rest)

theorem expression_agree {ts us : List Token} (alike : Alike ts us) :
    Agree Eq (expression ts) (expression us) := by
  refine (operand_agree alike).bind ?_
  rintro left _ ts us _ rfl rest
  simp only [alike_headKind rest]
  split
  · refine (operand_agree (alike_tail rest)).bind ?_
    rintro right _ ts us _ rfl last
    exact .read rfl last
  · exact .read rfl rest

/- Clauses. -/

theorem moreFields_agree {ts us : List Token} (alike : Alike ts us) :
    Agree Eq (moreFields ts) (moreFields us) := by
  refine moreFields_repeats.agree ?_ alike
  intro ts us alike
  unfold nextField?
  rw [alike_headKind alike]
  split
  · refine Or.inr ⟨_, _, rfl, rfl, (take_agree _ _ (alike_tail alike)).bind ?_⟩
    intro field other ts us _ text rest
    exact .read text rest
  · exact Or.inl ⟨rfl, rfl⟩

theorem basicSwitch_agree {ts us : List Token} (alike : Alike ts us) :
    Agree Eq (basicSwitch ts) (basicSwitch us) := by
  unfold basicSwitch
  rw [alike_headKind alike]
  split
  · refine (take_agree _ _ (alike_tail alike)).bind ?_
    intro equals other ts us _ _ rest
    simp only [alike_headKind rest]
    split
    · exact .read rfl (alike_tail rest)
    · exact .read rfl (alike_tail rest)
    · exact .refused rest
  · exact .read rfl alike

theorem selection_agree {ts us : List Token} (alike : Alike ts us) :
    Agree Eq (selection ts) (selection us) := by
  refine (take_agree _ _ alike).bind ?_
  intro field other ts us _ text rest
  refine (moreFields_agree rest).bind ?_
  rintro fields _ ts us _ rfl rest
  refine (basicSwitch_agree rest).bind ?_
  rintro basic _ ts us _ rfl rest
  exact .read (by rw [text]) rest

theorem rowOrder_agree {ts us : List Token} (alike : Alike ts us) :
    Agree Eq (rowOrder ts) (rowOrder us) := by
  unfold rowOrder
  rw [alike_headKind alike]
  split
  · refine (take_agree _ _ (alike_tail alike)).bind ?_
    intro field other ts us _ text rest
    exact .read (by rw [text]) rest
  · refine (take_agree _ _ (alike_tail alike)).bind ?_
    intro field other ts us _ text rest
    exact .read (by rw [text]) rest
  · exact .refused alike

theorem rowCount_agree {ts us : List Token} (alike : Alike ts us) :
    Agree Eq (rowCount ts) (rowCount us) := by
  cases alike with
  | nil => exact .refused .nil
  | @cons t u ts us same rest =>
    have parts := Prod.mk.inj same
    simp only [rowCount, parts.1, parts.2]
    split
    · split
      · exact .read rfl rest
      · exact .refused (.cons same rest)
    · exact .refused (.cons same rest)

theorem clause?_agree {ts us : List Token} (alike : Alike ts us) :
    AgreeOrAbsent (clause? ts) (clause? us) := by
  unfold clause?
  rw [alike_headKind alike]
  split
  · refine Or.inr ⟨_, _, rfl, rfl, (selection_agree (alike_tail alike)).bind ?_⟩
    rintro s _ ts us _ rfl rest
    exact .read rfl rest
  · refine Or.inr ⟨_, _, rfl, rfl, (take_agree _ _ (alike_tail alike)).bind ?_⟩
    intro word other ts us _ _ rest
    refine (rowOrder_agree rest).bind ?_
    rintro o _ ts us _ rfl last
    exact .read rfl last
  · refine Or.inr ⟨_, _, rfl, rfl, (rowOrder_agree alike).bind ?_⟩
    rintro o _ ts us _ rfl rest
    exact .read rfl rest
  · refine Or.inr ⟨_, _, rfl, rfl, (rowOrder_agree alike).bind ?_⟩
    rintro o _ ts us _ rfl rest
    exact .read rfl rest
  · refine Or.inr ⟨_, _, rfl, rfl, (rowCount_agree (alike_tail alike)).bind ?_⟩
    rintro n _ ts us _ rfl rest
    exact .read rfl rest
  · exact Or.inl ⟨rfl, rfl⟩

theorem clauses_agree {ts us : List Token} (alike : Alike ts us) :
    Agree Eq (clauses ts) (clauses us) :=
  clauses_repeats.agree clause?_agree alike

/- Conditions, queries and declarations. -/

theorem moreFilters_agree {ts us : List Token} (alike : Alike ts us) :
    Agree Eq (moreFilters ts) (moreFilters us) := by
  refine moreFilters_repeats.agree ?_ alike
  intro ts us alike
  unfold nextFilter?
  rw [alike_headKind alike]
  split
  · exact Or.inr ⟨_, _, rfl, rfl, expression_agree (alike_tail alike)⟩
  · exact Or.inl ⟨rfl, rfl⟩

theorem filters_agree {ts us : List Token} (alike : Alike ts us) :
    Agree Eq (filters ts) (filters us) := by
  unfold filters
  rw [alike_headKind alike]
  split
  · refine (expression_agree (alike_tail alike)).bind ?_
    rintro e _ ts us _ rfl rest
    refine (moreFilters_agree rest).bind ?_
    rintro es _ ts us _ rfl rest
    exact .read rfl rest
  · exact .read rfl alike

theorem scope_agree {ts us : List Token} (alike : Alike ts us) :
    Agree Eq (scope ts) (scope us) := by
  cases alike with
  | nil => exact .refused .nil
  | @cons t u ts us same rest =>
    have parts := Prod.mk.inj same
    simp only [scope, parts.1, parts.2]
    split
    · refine (take_agree _ _ rest).bind ?_
      intro _ _ ts us _ _ rest
      refine (take_agree _ _ rest).bind ?_
      intro _ _ ts us _ _ rest
      refine (take_agree _ _ rest).bind ?_
      intro _ _ ts us _ _ rest
      exact .read rfl rest
    · exact .read rfl rest
    · exact .read rfl rest
    · exact .read rfl rest
    · exact .read rfl rest
    · exact .refused (.cons same rest)

theorem query?_agree {ts us : List Token} (alike : Alike ts us) :
    Agree Eq (query? ts) (query? us) := by
  have whole : ∀ {ts us : List Token}, Alike ts us → Agree Eq (query ts) (query us) := by
    intro ts us alike
    refine (scope_agree alike).bind ?_
    rintro s _ ts us _ rfl rest
    refine (filters_agree rest).bind ?_
    rintro es _ ts us _ rfl rest
    refine (clauses_agree rest).bind ?_
    rintro cs _ ts us _ rfl rest
    exact .read rfl rest
  unfold query?
  rw [alike_headKind alike]
  split
  · refine (whole (alike_tail alike)).bind ?_
    rintro q _ ts us _ rfl rest
    exact .read rfl rest
  · exact .read rfl alike

theorem declaration_agree {ts us : List Token} (kind : Entity) (alike : Alike ts us) :
    Agree Eq (declaration kind ts) (declaration kind us) := by
  refine (take_agree _ _ alike).bind ?_
  intro name other ts us _ text rest
  simp only [alike_headKind rest, text]
  split
  · refine (expression_agree (alike_tail rest)).bind ?_
    rintro e _ ts us _ rfl last
    exact .read rfl last
  · exact .read rfl rest

theorem declarations_agree {ts us : List Token} (alike : Alike ts us) :
    Agree Eq (declarations ts) (declarations us) := by
  refine declarations_repeats.agree ?_ alike
  intro ts us alike
  unfold nextDeclaration?
  rw [alike_headKind alike]
  cases (headKind us).entity? with
  | none => exact Or.inl ⟨rfl, rfl⟩
  | some kind => exact Or.inr ⟨_, _, rfl, rfl, declaration_agree kind (alike_tail alike)⟩

theorem program_agree {ts us : List Token} (alike : Alike ts us) :
    Agree Eq (program ts) (program us) := by
  refine (declarations_agree alike).bind ?_
  rintro ds _ ts us _ rfl rest
  refine (query?_agree rest).bind ?_
  rintro q _ ts us _ rfl rest
  simp only [alike_headKind rest]
  split
  · exact .read rfl rest
  · exact .refused rest

end Reading

open Token Reading

/-- The same tree, or refusals with the same expectation and the same token shown. -/
def SameOutcome : Except Fault Program → Except Fault Program → Prop
  | .ok p, .ok q => p = q
  | .error (.unexpectedToken expected found _), .error (.unexpectedToken wanted shown _) =>
    expected = wanted ∧ found = shown
  | _, _ => False

theorem fault_alike (s s' : TokenStream) {expected : String} {ts us : List Token}
    (alike : Alike ts us) :
    SameOutcome (.error (s.fault ⟨expected, ts⟩)) (.error (s'.fault ⟨expected, us⟩)) := by
  cases alike with
  | nil => exact ⟨rfl, by simp [Token.shown, TokenStream.last_kind]⟩
  | @cons t u ts us same rest =>
    have parts := Prod.mk.inj same
    refine ⟨rfl, ?_⟩
    simp only [List.headD_cons, Token.shown, parts.1, parts.2]

theorem stream_alike {s s' : TokenStream} (alike : Alike s.ahead s'.ahead) :
    SameOutcome s.program.1 s'.program.1 := by
  have agree := program_agree alike
  unfold TokenStream.program
  cases first : program s.ahead with
  | ok read =>
    cases second : program s'.ahead with
    | ok readToo =>
      rw [first, second] at agree
      cases agree with
      | read value rest => exact value
    | error refusal =>
      rw [first, second] at agree
      cases agree
  | error refusal =>
    cases second : program s'.ahead with
    | ok readToo =>
      rw [first, second] at agree
      cases agree
    | error refusalToo =>
      rw [first, second] at agree
      cases agree with
      | refused rest => exact fault_alike s s' rest

theorem contents_scanned {source : String} {tokens : List Token}
    (scanned : Token.scan source = .ok tokens) :
    contents tokens = (sentence tokens).map content ++ [(.eof, "")] := by
  obtain ⟨front, last, rfl, _⟩ := Token.scan_tokens scanned
  simp [contents, TokenStream.words, sentence, content]

theorem parse_scanned {source : String} {tokens : List Token}
    (scanned : Token.scan source = .ok tokens) :
    Program.parse source = (TokenStream.ofTokens tokens).program.1 := by
  rw [Program.parse, scanned]
  rfl

theorem parse_written {ts : List Token} {text : String} (spaced : Spaced ts text.toList)
    (lexemes : ∀ t ∈ ts, IsLexeme t.kind t.text ∧ t.kind ≠ .newline) {p : Program}
    (derived : Grammar.IsProgram ts p) : Program.parse text = .ok p := by
  obtain ⟨tokens, tiled, found⟩ := yields_spaced spaced .nil lexemes []
  rw [List.append_nil] at tiled
  have scanned := scan_of_tiled tiled
  rw [contents_scanned scanned] at found
  have agree := program_agree (alike_of_contents (List.append_cancel_right found))
  have read := program_complete derived (show headKind [] = .eof from rfl)
  rw [List.append_nil] at read
  rw [read] at agree
  rw [parse_scanned scanned, TokenStream.program_eq_ok, ahead_of_scanned scanned]
  cases whole : program (sentence tokens) with
  | error refusal =>
    rw [whole] at agree
    cases agree
  | ok outcome =>
    obtain ⟨q, rest⟩ := outcome
    rw [whole] at agree
    cases agree with
    | read value _ => exact ⟨rest, by rw [value]⟩

/-- Layout does not matter: whatever mix of blanks, line feeds and comments stands between
    the tokens of a text, the tokens are found again and read as the same program, or
    refused with the same expectation at the same token. -/
theorem layout_irrelevant {source text : String} {tokens : List Token}
    (scanned : Token.scan source = .ok tokens)
    (respaced : Respaced (sentence tokens) text.toList) :
    ∃ again, Token.scan text = .ok again ∧ contents again = contents tokens ∧
      SameOutcome (Program.parse source) (Program.parse text) := by
  obtain ⟨lead, cs, trail, leadLayout, spaced, trailLayout, whole⟩ := respaced
  have lexemes : ∀ t ∈ sentence tokens, IsLexeme t.kind t.text ∧ t.kind ≠ .newline := by
    intro t member
    have notEnd := (sentence_classes scanned t member).2
    simp only [sentence, List.mem_filter, decide_eq_true_eq] at member
    exact ⟨tiled_lexemes (tiled_of_scan scanned) t (List.dropLast_subset _ member.1) notEnd,
      member.2⟩
  have yields := yields_layout leadLayout (yields_spaced spaced trailLayout lexemes)
  rw [← List.append_assoc, ← whole] at yields
  obtain ⟨again, tiled, found⟩ := yields []
  have scannedAgain := scan_of_tiled tiled
  have same : contents again = contents tokens := found.trans (contents_scanned scanned).symm
  refine ⟨again, scannedAgain, same, ?_⟩
  rw [parse_scanned scanned, parse_scanned scannedAgain]
  apply stream_alike
  rw [ahead_of_scanned scanned, ahead_of_scanned scannedAgain]
  rw [contents_scanned scanned, contents_scanned scannedAgain] at same
  exact alike_of_contents (List.append_cancel_right same).symm

theorem limit_respaced : ∃ again, Token.scan "get games\tlimit # five\n5\r" = .ok again ∧
    contents again = [(.keyword .get, "get"), (.keyword .games, "games"),
      (.keyword .limit, "limit"), (.number, "5"), (.eof, "")] ∧
    SameOutcome (Program.parse "get games#all\nlimit 5")
      (Program.parse "get games\tlimit # five\n5\r") := by
  have scanned : Token.scan "get games#all\nlimit 5" = .ok
      [⟨.keyword .get, "get", ⟨1, 1⟩⟩, ⟨.keyword .games, "games", ⟨1, 5⟩⟩,
       ⟨.newline, "\n", ⟨1, 14⟩⟩, ⟨.keyword .limit, "limit", ⟨2, 1⟩⟩,
       ⟨.number, "5", ⟨2, 7⟩⟩, ⟨.eof, "", ⟨2, 8⟩⟩] := by
    decide +kernel
  have comment : IsLayout " # five\n".toList :=
    .blank rfl (@IsLayout.comment " five".toList [] (by decide) .nil)
  have spaced :=
    Spaced.next ⟨.keyword .get, "get", ⟨1, 1⟩⟩ (.blank (c := ' ') rfl .nil) (by simp) <|
    Spaced.next ⟨.keyword .games, "games", ⟨1, 5⟩⟩ (.blank (c := '\t') rfl .nil) (by simp) <|
    Spaced.next ⟨.keyword .limit, "limit", ⟨2, 1⟩⟩ comment (by decide) <|
    Spaced.last ⟨.number, "5", ⟨2, 7⟩⟩
  exact layout_irrelevant scanned
    ⟨[], _, ['\r'], .nil, spaced, .blank rfl .nil, by decide⟩

end BoxScore
