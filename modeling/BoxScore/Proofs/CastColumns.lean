import BoxScore.Proofs.ConditionLayout
import BoxScore.Proofs.OpponentColumns

/- When a comparison casts its left side. Numbers are kept as text in some columns, and a
   comparison should cast exactly where such a column is written. But whether it does is
   decided by the name that the query uses, not by the column that is written: a bare name
   is written as it stands and judged as a field of a player, and a field of the team of a
   player is written with a word in front of it and judged without. -/
namespace BoxScore

open Sql

def lastPart (text : String) : String :=
  String.ofList (text.toList.reverse.takeWhile (· ≠ '.')).reverse

theorem takeWhile_append_of_point {cs : List Char} (point : '.' ∈ cs) (ds : List Char) :
    (cs ++ ds).takeWhile (· ≠ '.') = cs.takeWhile (· ≠ '.') := by
  induction cs with
  | nil => cases point
  | cons c cs ih =>
    by_cases stop : c = '.'
    · simp [stop]
    · have later : '.' ∈ cs := by
        rcases List.mem_cons.mp point with same | later
        · exact absurd same.symm stop
        · exact later
      have rest := ih later
      simp only [ne_eq, decide_not] at rest
      simp [stop, rest]

theorem pointless_reverse {text : String} (pointless : '.' ∉ text.toList) :
    ∀ c ∈ text.toList.reverse, decide (c ≠ '.') = true := by
  intro c member
  rw [decide_eq_true_eq]
  rintro rfl
  exact pointless (List.mem_reverse.mp member)

theorem lastPart_of_not_mem {text : String} (pointless : '.' ∉ text.toList) :
    lastPart text = text := by
  rw [lastPart, List.takeWhile_eq_self_iff.mpr (pointless_reverse pointless),
    List.reverse_reverse, String.ofList_toList]

theorem lastPart_append_of_mem (front : String) {back : String} (point : '.' ∈ back.toList) :
    lastPart (front ++ back) = lastPart back := by
  rw [lastPart, lastPart, String.toList_append, List.reverse_append,
    takeWhile_append_of_point (List.mem_reverse.mpr point)]

theorem lastPart_point (name : String) : lastPart ("." ++ name) = lastPart name := by
  by_cases point : '.' ∈ name.toList
  · exact lastPart_append_of_mem "." point
  · rw [lastPart_of_not_mem point]
    have text : ("." ++ name).toList.reverse = name.toList.reverse ++ ['.'] := by simp
    rw [lastPart, text, List.takeWhile_append_of_pos (pointless_reverse point)]
    simp

theorem lastPart_column (table name : String) :
    lastPart (table ++ "." ++ name) = lastPart name := by
  have point : '.' ∈ ("." ++ name).toList := by simp
  rw [String.append_assoc, lastPart_append_of_mem table point, lastPart_point]

theorem lastPart_fullName (table : String) :
    lastPart ("TRIM(" ++ table ++ ".firstName || ' ' || " ++ table ++ ".lastName)") =
      "lastName)" := by
  have point : '.' ∈ ".lastName)".toList := by decide
  rw [lastPart_append_of_mem _ point]
  decide

theorem naming_pointless : Naming ('.' ∉ ·.toList) where
  word _ word := word_pointless word
  join _ _ first second := by simp [first, second]

namespace Schema

theorem fields_pointless (kind : Entity) : ∀ entry ∈ columns kind, '.' ∉ entry.1.toList := by
  cases kind <;> decide

theorem isStatColumn_of_point {name : String} (point : '.' ∈ name.toList) :
    isStatColumn name = false := by
  rw [Bool.eq_false_iff]
  intro number
  have all : ∀ c ∈ statColumns, '.' ∉ c.toList := by decide
  exact all name (by simpa [isStatColumn] using number) point

theorem column_of_point (kind : Entity) {field : String} (point : '.' ∈ field.toList) :
    column kind field = field := by
  refine column_eq_self ((columns kind).map Prod.fst) ?_ ?_
  · intro entry listed
    exact Or.inl (List.mem_map_of_mem listed)
  · intro named
    obtain ⟨entry, listed, rfl⟩ := List.mem_map.mp named
    exact fields_pointless kind entry listed point

theorem column_pointless (kind : Entity) {field : String} (pointless : '.' ∉ field.toList) :
    '.' ∉ (column kind field).toList := by
  by_cases plain : field ≠ "name" ∨ kind ≠ .player
  · exact naming_pointless.column pointless plain
  · simp only [not_or, not_not] at plain
    rw [plain.1, plain.2]
    decide

/-- A name with a point in it whose last part is a number kept as text. -/
def PointsAtStat (name : String) : Prop :=
  '.' ∈ name.toList ∧ isStatColumn (lastPart name)

instance (name : String) : Decidable (PointsAtStat name) :=
  inferInstanceAs (Decidable (_ ∧ _))

theorem isStatColumn_lastPart (name : String) :
    isStatColumn name = isStatColumn (lastPart name) ↔ ¬ PointsAtStat name := by
  by_cases point : '.' ∈ name.toList
  · rw [isStatColumn_of_point point, PointsAtStat]
    cases isStatColumn (lastPart name) <;> simp [point]
  · simp [PointsAtStat, point, lastPart_of_not_mem point]

theorem pointsAtStat_column (kind : Entity) (field : String) :
    PointsAtStat (column kind field) ↔ PointsAtStat field := by
  by_cases point : '.' ∈ field.toList
  · rw [column_of_point kind point]
  · simp [PointsAtStat, point, column_pointless kind point]

theorem isStatColumn_player_iff (name : String) :
    isStatColumn (column .player name) = isStatColumn name ↔ name ∉ shortStats := by
  by_cases known : name ∈ "name" :: "team" :: shortFields
  · have each : ∀ f ∈ "name" :: "team" :: shortFields,
        isStatColumn (column .player f) = isStatColumn f ↔ f ∉ shortStats := by decide
    exact each name known
  · have long : name ∉ shortStats := by
      intro short
      have among : ∀ f ∈ shortStats, f ∈ "name" :: "team" :: shortFields := by decide
      exact known (among name short)
    simp only [List.mem_cons, not_or] at known
    rw [player_column_eq_self known.2.2 known.1 known.2.1]
    exact iff_of_true rfl long

theorem isStatColumn_team (field : String) :
    isStatColumn (column .team field) = isStatColumn field := by
  by_cases known : field ∈ teamColumns.map Prod.fst
  · have each : ∀ f ∈ teamColumns.map Prod.fst,
        isStatColumn (column .team f) = isStatColumn f := by decide
    exact each field known
  · rw [column_eq_self (teamColumns.map Prod.fst) (by decide) known]

theorem isStatColumn_ownTeam (field : String) : isStatColumn ("playerteam" ++ field) = false := by
  rw [Bool.eq_false_iff]
  intro number
  have all : ∀ c ∈ statColumns, c.toList.take 10 ≠ "playerteam".toList := by decide
  exact all _ (by simpa [isStatColumn] using number) (by simp)

end Schema

/-- All that a field of a variable can be read as, by the field and by what the variable is
    tied to. -/
inductive Binding.ReadAs (b : Binding) (field : String) : Term Value → Prop where
  | played (player : b.kind = .player) (named : field = "played") : ReadAs b field .always
  | person (table : String) (named : field = "name") : ReadAs b field (.fullName table)
  | teamName (table : String) (named : field = "name" ∨ field = "team") :
      ReadAs b field (.column table "playerteamName")
  | ownTeam (table : String) (team : b.kind = .team) (tied : b.isRelatedBy .team) :
      ReadAs b field (.column table ("playerteam" ++ field))
  | listed (table : String) (unplayed : b.kind = .player → field ≠ "played")
      (free : b.kind = .team → ¬ b.isRelatedBy .team) :
      ReadAs b field (.column table (Schema.column b.kind field))

namespace Roster

theorem fieldTerm_readAs {r : Roster} {owner field : String} {t : Term Value}
    (read : r.fieldTerm owner field = .ok t) :
    ∃ b, r.find? owner = some b ∧ b.ReadAs field t := by
  unfold fieldTerm at read
  split at read
  · cases read
  · rename_i b found
    refine ⟨b, find?_of_lookup found, ?_⟩
    cases kind : b.kind with
    | player =>
      have free : b.kind = .team → ¬ b.isRelatedBy .team := by simp [kind]
      simp only [kind] at read
      split at read
      · rename_i played
        cases read
        exact .played kind played
      · rename_i unplayed
        have listed : ∀ table, b.ReadAs field (.column table (Schema.column .player field)) := by
          intro table
          exact kind ▸ .listed table (fun _ => unplayed) free
        split at read
        all_goals
          split at read
          · rename_i named
            cases read
            exact .person _ named
          · cases read
            exact listed _
    | team =>
      simp only [kind] at read
      split at read
      · rename_i source tied
        have own : b.isRelatedBy .team := by simp [Binding.isRelatedBy, tied]
        cases read
        split
        · rename_i named
          exact .teamName _ (Or.inl named)
        · exact .ownTeam _ kind own
      · rename_i other
        cases read
        refine kind ▸ .listed _ (by simp [kind]) fun _ own => ?_
        obtain ⟨source, tied⟩ := relation?_of_isRelatedBy own
        exact other source tied
    | opponent =>
      have listed : ∀ table, b.ReadAs field (.column table (Schema.column .opponent field)) := by
        intro table
        exact kind ▸ .listed table (by simp [kind]) (by simp [kind])
      simp only [kind] at read
      split at read
      · split at read
        · rename_i named
          cases read
          exact .person _ named
        · split at read
          · rename_i named
            cases read
            exact .teamName _ (Or.inr named)
          · cases read
            exact listed _
      · cases read
        exact listed _

/-- Names and fields that are judged by another column than the one that is written: a bare
    name that is short for a number, a field of the team of a player that is the name of a
    number, and whatever ends in a point and the name of a number. -/
inductive Misjudges (r : Roster) : Expr → Prop where
  | shortName {text : String} (short : text ∈ Schema.shortStats) : Misjudges r (.name text)
  | pointedName {text : String} (pointed : Schema.PointsAtStat text) : Misjudges r (.name text)
  | ownTeam {owner field : String} {b : Binding} (found : r.find? owner = some b)
      (team : b.kind = .team) (tied : b.isRelatedBy .team)
      (number : Schema.isStatColumn field) : Misjudges r (.field owner field)
  | pointedField {owner field : String} (pointed : Schema.PointsAtStat field) :
      Misjudges r (.field owner field)

variable {r : Roster}

theorem misjudges_name_iff (text : String) :
    r.Misjudges (.name text) ↔ text ∈ Schema.shortStats ∨ Schema.PointsAtStat text := by
  constructor
  · intro judged
    cases judged with
    | shortName short => exact Or.inl short
    | pointedName pointed => exact Or.inr pointed
  · rintro (short | pointed)
    · exact .shortName short
    · exact .pointedName pointed

theorem misjudges_field_iff {owner : String} {b : Binding} (found : r.find? owner = some b)
    (field : String) : r.Misjudges (.field owner field) ↔
      (b.kind = .team ∧ b.isRelatedBy .team ∧ Schema.isStatColumn field) ∨
        Schema.PointsAtStat field := by
  constructor
  · intro judged
    cases judged with
    | ownTeam again team tied number =>
      cases found.symm.trans again
      exact Or.inl ⟨team, tied, number⟩
    | pointedField pointed => exact Or.inr pointed
  · rintro (⟨team, tied, number⟩ | pointed)
    · exact .ownTeam found team tied number
    · exact .pointedField pointed

/- A name and a field of each kind of variable: the judgement and the column that is
   written agree unless the expression is misjudged. -/

def Judged (r : Roster) (e : Expr) (text : String) : Prop :=
  r.readsStat e = Schema.isStatColumn (lastPart text) ↔ ¬ r.Misjudges e

theorem name_judged (r : Roster) (text : String) (bound : Nat) :
    r.Judged (.name text) (((nameTerm text : Term Value).numbered bound).text Term.placeholder) := by
  rw [Judged, misjudges_name_iff, not_or, readsStat]
  by_cases day : text = "game_date"
  · have written : ((nameTerm text : Term Value).numbered bound).text Term.placeholder =
        "games.gameDate" := by
      rw [nameTerm, if_pos day]
      rfl
    rw [written, day]
    exact iff_of_true (by decide) (by decide)
  · have written : ((nameTerm text : Term Value).numbered bound).text Term.placeholder = text := by
      simp [nameTerm, day, Term.numbered, Term.text]
    rw [written, ← Schema.isStatColumn_player_iff, ← Schema.isStatColumn_lastPart]
    by_cases point : '.' ∈ text.toList
    · rw [Schema.column_of_point .player point]
      simp
    · rw [lastPart_of_not_mem point]
      simp

theorem column_judged {owner field table : String} {b : Binding} (found : r.find? owner = some b)
    (unplayed : b.kind = .player → field ≠ "played") (free : b.kind = .team → ¬ b.isRelatedBy .team) :
    r.Judged (.field owner field) (table ++ "." ++ Schema.column b.kind field) := by
  have stat : r.readsStat (.field owner field) =
      Schema.isStatColumn (Schema.column b.kind field) := by
    by_cases player : b.kind = .player
    · simp [readsStat, found, unplayed player]
    · simp [readsStat, found, player]
  rw [Judged, misjudges_field_iff found, stat, lastPart_column, Schema.isStatColumn_lastPart,
    Schema.pointsAtStat_column]
  simp only [not_or]
  constructor
  · intro unpointed
    refine ⟨?_, unpointed⟩
    rintro ⟨team, tied, -⟩
    exact free team tied
  · exact And.right

theorem ownTeam_judged {owner field table : String} {b : Binding} (found : r.find? owner = some b)
    (team : b.kind = .team) (tied : b.isRelatedBy .team) :
    r.Judged (.field owner field) (table ++ "." ++ ("playerteam" ++ field)) := by
  have stat : r.readsStat (.field owner field) = Schema.isStatColumn field := by
    simp [readsStat, found, team, Schema.isStatColumn_team]
  rw [Judged, misjudges_field_iff found, stat, lastPart_column]
  by_cases point : '.' ∈ field.toList
  · rw [lastPart_append_of_mem _ point, Schema.isStatColumn_lastPart]
    simp [Schema.isStatColumn_of_point point]
  · have pointless : '.' ∉ ("playerteam" ++ field).toList := by simp [point]
    rw [lastPart_of_not_mem pointless, Schema.isStatColumn_ownTeam]
    simp [team, tied, Schema.PointsAtStat, point]

theorem named_judged {owner field text : String} {b : Binding} (found : r.find? owner = some b)
    (named : field = "name" ∨ field = "team")
    (unwritten : Schema.isStatColumn (lastPart text) = false) :
    r.Judged (.field owner field) text := by
  have none : ∀ kind, ∀ f ∈ ["name", "team"], Schema.isStatColumn (Schema.column kind f) = false ∧
      Schema.isStatColumn f = false ∧ '.' ∉ f.toList := by
    intro kind
    cases kind <;> decide
  obtain ⟨unread, other, pointless⟩ := none b.kind field (by simpa using named)
  rw [Judged, misjudges_field_iff found, unwritten]
  simp [readsStat, found, unread, other, Schema.PointsAtStat, pointless]

theorem played_judged {owner : String} {b : Binding} (found : r.find? owner = some b)
    (player : b.kind = .player) : r.Judged (.field owner "played") "1=1" := by
  have unwritten : Schema.isStatColumn (lastPart "1=1") = false := by decide
  rw [Judged, misjudges_field_iff found, unwritten]
  simp [readsStat, found, player, Schema.PointsAtStat]

theorem field_judged {owner field : String} {t : Term Value}
    (read : r.fieldTerm owner field = .ok t) (bound : Nat) :
    r.Judged (.field owner field) ((t.numbered bound).text Term.placeholder) := by
  obtain ⟨b, found, reads⟩ := fieldTerm_readAs read
  cases reads with
  | played player named =>
    rw [named]
    exact played_judged found player
  | person table named =>
    apply named_judged found (Or.inl named)
    rw [Term.numbered, Term.text, lastPart_fullName]
    decide
  | teamName table named =>
    apply named_judged found named
    rw [Term.numbered, Term.text, lastPart_column]
    decide
  | ownTeam table team tied => exact ownTeam_judged found team tied
  | listed table unplayed free => exact column_judged found unplayed free

end Roster

def Expr.isReference : Expr → Bool
  | .name _ | .field _ _ => true
  | _ => false

theorem Roster.reference_judged {r : Roster} {e : Expr} {t : Term Value}
    (reference : e.isReference) (read : r.term e = .ok t) (bound : Nat) :
    r.Judged e ((t.numbered bound).text Term.placeholder) := by
  cases e with
  | name text =>
    cases read
    exact r.name_judged text bound
  | field owner field =>
    rw [term] at read
    exact field_judged read bound
  | _ => cases reference

def castText (cast : Bool) (text : String) : String :=
  if cast then "CAST(" ++ text ++ " AS REAL)" else text

theorem compare_text (cast : Bool) (left right : Term Value) (op : Comparison) (bound : Nat) :
    ((Term.compare (if cast then .cast left .real else left) op right).numbered bound).text
        Term.placeholder =
      castText cast ((left.numbered bound).text Term.placeholder) ++ " " ++ op.symbol ++ " " ++
        (right.numbered (bound + left.values.length)).text Term.placeholder := by
  cases cast with
  | false => simp [castText, Term.numbered, Term.text]
  | true =>
    have close : " AS " ++ "REAL" ++ ")" = " AS REAL)" := by decide
    simp [castText, Term.numbered, Term.text, Term.values, NumericType.text, ← close,
      String.append_assoc]

theorem compare_values (cast : Bool) (left right : Term Value) (op : Comparison) :
    (Term.compare (if cast then .cast left .real else left) op right).values =
      left.values ++ right.values := by
  cases cast <;> rfl

/-- A comparison whose left side is a name or a field, written behind what a draft has
    bound. It is cast exactly where the column that is written is a number kept as text,
    unless the name or the field is misjudged; then it is cast exactly where it is not. -/
theorem cast_fits_column_iff {d middle last : Draft} {left right : Expr} {op : Comparison}
    {first second : String} (reference : left.isReference)
    (plain : ¬ d.roster.Special left op right) (writtenLeft : d.expression left = .ok (first, middle))
    (writtenRight : middle.expression right = .ok (second, last)) :
    ∃ cast : Bool, d.expression (.compare left op right) =
        .ok (castText cast first ++ " " ++ op.symbol ++ " " ++ second, last) ∧
      ((cast = true ↔ Schema.isStatColumn (lastPart first)) ↔ ¬ d.roster.Misjudges left) := by
  obtain ⟨leftTerm, readLeft, rfl, rfl⟩ := Draft.expression_ok writtenLeft
  obtain ⟨rightTerm, readRight, rfl, rfl⟩ := Draft.expression_ok writtenRight
  refine ⟨d.roster.readsStat left, ?_, ?_⟩
  · rw [Draft.expression, Roster.term_compare_plain plain readLeft readRight]
    have bound := compare_values (d.roster.readsStat left) leftTerm rightTerm op
    have text := compare_text (d.roster.readsStat left) leftTerm rightTerm op d.bound.length
    rw [List.length_append, List.append_assoc, ← bound, ← text]
    rfl
  · rw [← Bool.eq_iff_iff]
    exact Roster.reference_judged reference readLeft d.bound.length

theorem rebounds_cast_as_written : ∃ last,
    (Draft.start (.ofBindings [⟨"p", .player, .unbound⟩])).expression
        (.compare (.field "p" "rebounds") .gt (.literal (.int 10) .number)) =
      .ok ("CAST(player_statistics.reboundsTotal AS REAL) > ?1", last) ∧
    Schema.isStatColumn (lastPart "player_statistics.reboundsTotal") := by
  let d := Draft.start (.ofBindings [⟨"p", .player, .unbound⟩])
  have found : d.roster.find? "p" = some ⟨"p", .player, .unbound⟩ := by decide
  have plain : ¬ d.roster.Special (.field "p" "rebounds") .gt (.literal (.int 10) .number) :=
    fun special => absurd special.equality (by decide)
  have left : d.expression (.field "p" "rebounds") =
      .ok ("player_statistics.reboundsTotal", d) := by decide
  have right : d.expression (.literal (.int 10) .number) =
      .ok ("?1", ⟨d.roster, [.int 10]⟩) := by decide
  obtain ⟨cast, written, judged⟩ := cast_fits_column_iff rfl plain left right
  have fair : ¬ d.roster.Misjudges (.field "p" "rebounds") := by
    rw [Roster.misjudges_field_iff found]
    decide
  have number : Schema.isStatColumn (lastPart "player_statistics.reboundsTotal") := by decide
  obtain rfl := (judged.mpr fair).mpr number
  exact ⟨_, written, number⟩

def teamPoints : Program where
  declarations := [⟨.player, "p", none⟩, ⟨.team, "t", some (.field "p" "team")⟩]
  query := some ⟨.games, [.compare (.field "t" "points") .gt (.literal (.int 5) .number),
    .compare (.name "rebounds") .gt (.literal (.int 10) .number)], none, none, none⟩

/-- Both conditions of this query are cast, and neither of the columns that they write is
    among the numbers kept as text. -/
theorem unread_numbers_cast :
    Program.parse "Player p Team t = p.team get games where t.points > 5 and rebounds > 10" =
      .ok teamPoints ∧
    ∃ r q, teamPoints.roster = .ok r ∧ teamPoints.query = some q ∧
      ((Draft.start r).conditions q.filters).map Prod.fst =
        .ok ["1=1", "CAST(p_stats.playerteampoints AS REAL) > ?1",
          "CAST(rebounds AS REAL) > ?2"] ∧
      lastPart "p_stats.playerteampoints" = "playerteampoints" ∧
      ¬ Schema.isStatColumn "playerteampoints" ∧ ¬ Schema.isStatColumn "rebounds" := by
  refine ⟨by decide +kernel, .ofBindings [⟨"p", .player, .unbound⟩,
    ⟨"t", .team, .related .team "p"⟩], _, by decide, rfl, ?_, by decide, by decide, by decide⟩
  decide +kernel

end BoxScore
