import BoxScore.Proofs.Parameters

/- Literals do not reach the text of a plan. A program is compared with its blank, in which
   all literals are the same one: entering and planning take the same course in both, so
   two programs with one blank have plans that differ in the values of their parameters
   only. Conditions on a season look their literal up, so it has to be the name of one. -/
namespace BoxScore

open Sql

/-- The literal that stands for all others; it can be asked for as a season. -/
def Value.blank : Value := .string "2023-24"

theorem Value.blank_season :
    Season.ofName? Value.blank.text = some ⟨"2023-24", ⟨2023, 10, 17⟩, ⟨2024, 6, 17⟩⟩ := by
  decide +kernel

def Expr.blank : Expr → Expr
  | .compare left op right => .compare left.blank op right.blank
  | .field owner f => .field owner f
  | .literal _ _ => .literal Value.blank .string
  | .name text => .name text
  | .aggregate f argument => .aggregate f argument.blank

def Declaration.blank (d : Declaration) : Declaration :=
  ⟨d.kind, d.name, d.initial.map Expr.blank⟩

def Query.blank (q : Query) : Query := { q with filters := q.filters.map Expr.blank }

def Program.blank (p : Program) : Program :=
  ⟨p.declarations.map Declaration.blank, p.query.map Query.blank⟩

def Expr.seasonsKnown : Expr → Bool
  | .compare left op right =>
    (Expr.compare left op right).seasonValue?.all (fun v => (Season.ofName? v.text).isSome) &&
      left.seasonsKnown && right.seasonsKnown
  | .aggregate _ argument => argument.seasonsKnown
  | .field _ _ | .literal _ _ | .name _ => true

def Program.seasonsKnown (p : Program) : Bool :=
  p.query.all fun q => q.filters.all Expr.seasonsKnown

def Program.plan (defaultLimit : Option UInt64) (p : Program) : Except Fault Plan := do
  let roster ← p.roster
  Plan.ofQuery? roster defaultLimit p.query

/-- Two runs that agree on what `view` shows agree on what `last` shows behind them, if
    what follows tells apart no two values with one view. -/
theorem map_bind_congr {ε α β γ δ : Type} {x y : Except ε α} {f g : α → Except ε β}
    {view : α → γ} {last : β → δ} (same : x.map view = y.map view)
    (step : ∀ a b, view a = view b → (f a).map last = (g b).map last) :
    (x >>= f).map last = (y >>= g).map last := by
  cases x with
  | error e =>
    cases y with
    | error e' =>
      cases same
      rfl
    | ok b => cases same
  | ok a =>
    cases y with
    | error e => cases same
    | ok b => exact step a b (Except.ok.inj same)

def Target.blank : Target → Target
  | .literal _ => .literal Value.blank
  | .unbound => .unbound
  | .related relation source => .related relation source

def Binding.blank (b : Binding) : Binding := ⟨b.name, b.kind, b.target.blank⟩

namespace Binding

@[simp]
theorem blank_name (b : Binding) : b.blank.name = b.name := rfl

@[simp]
theorem blank_kind (b : Binding) : b.blank.kind = b.kind := rfl

@[simp]
theorem blank_isPlayer (b : Binding) : b.blank.isPlayer = b.isPlayer := rfl

@[simp]
theorem blank_relation? (b : Binding) : b.blank.relation? = b.relation? := by
  obtain ⟨name, kind, target⟩ := b
  cases target <;> rfl

@[simp]
theorem blank_isRelated (b : Binding) : b.blank.isRelated = b.isRelated := by
  simp [isRelated]

@[simp]
theorem blank_isRelatedBy (b : Binding) (relation : Relation) :
    b.blank.isRelatedBy relation = b.isRelatedBy relation := by
  simp [isRelatedBy]

end Binding

namespace Roster

def blank (r : Roster) : Roster where
  entries := r.entries.map Binding.blank
  slots := r.slots
  distinct := by
    rw [List.map_map]
    exact r.distinct
  indexed := by
    rw [List.map_map]
    exact r.indexed

theorem blank_entries (r : Roster) : r.blank.entries = r.entries.map Binding.blank := rfl

@[simp]
theorem blank_find? (r : Roster) (name : String) :
    r.blank.find? name = (r.find? name).map Binding.blank := by
  rw [find?_eq, find?_eq]
  exact List.find?_map

@[simp]
theorem blank_contains (r : Roster) (name : String) : r.blank.contains name = r.contains name := rfl

@[simp]
theorem blank_players (r : Roster) : r.blank.players = r.players := by
  simp [players, blank, List.filter_map, Function.comp_def]

@[simp]
theorem blank_hasRelated (r : Roster) : r.blank.hasRelated = r.hasRelated := by
  simp [hasRelated, blank, List.any_map, Function.comp_def]

@[simp]
theorem blank_aliasing (r : Roster) : r.blank.aliasing = r.aliasing := by
  simp [aliasing]

@[simp]
theorem blank_isPlayer (r : Roster) (name : String) : r.blank.isPlayer name = r.isPlayer name := by
  simp [isPlayer, Option.any_map]

theorem blank_insert (r : Roster) (b : Binding) : (r.insert b).blank = r.blank.insert b.blank := by
  have kept : r.blank.slot? b.blank.name = r.slot? b.name := rfl
  apply ext_entries
  rw [blank_entries, insert_entries, insert_entries, kept, blank_entries]
  cases r.slot? b.name with
  | some slot => exact List.map_set
  | none => exact List.map_append

theorem blank_target (r : Roster) (kind : Entity) (initial : Option Expr) :
    r.blank.target kind (initial.map Expr.blank) = (r.target kind initial).map Target.blank := by
  match initial with
  | some (.field owner name) =>
    simp only [Option.map_some, Expr.blank, target, lookup, blank_find?]
    cases r.find? owner with
    | none => rfl
    | some source =>
      simp only [Option.map_some, Binding.blank_kind]
      cases Relation.ofSpelling? name with
      | none => rfl
      | some relation =>
        by_cases linked : relation.links source.kind kind <;> simp [linked, Except.map, Target.blank]
  | none | some (.literal ..) | some (.compare ..) | some (.name _) | some (.aggregate ..) => rfl

theorem declare_blank (r : Roster) (d : Declaration) :
    r.blank.declare d.blank = (r.declare d).map fun (b, longer) => (b.blank, longer.blank) := by
  rw [declare_eq, declare_eq, blank_contains, Declaration.blank]
  by_cases present : r.contains d.name
  · rw [if_pos present, if_pos present]
    rfl
  · rw [if_neg present, if_neg present, blank_target]
    cases r.target d.kind d.initial with
    | error fault => rfl
    | ok tied =>
      have longer := blank_insert r ⟨d.name, d.kind, tied⟩
      exact congrArg (fun last => Except.ok (Binding.mk d.name d.kind tied.blank, last)) longer.symm

theorem declareAll_blank (r : Roster) (ds : List Declaration) :
    r.blank.declareAll (ds.map Declaration.blank) = (r.declareAll ds).map blank := by
  induction ds generalizing r with
  | nil => rfl
  | cons d ds ih =>
    rw [List.map_cons, declareAll, declareAll, declare_blank]
    cases r.declare d with
    | error fault => rfl
    | ok pair => exact ih pair.2

end Roster

namespace Sql

variable {α : Type}

def Term.blank : Term α → Term Unit
  | .column table name => .column table name
  | .word text => .word text
  | .parameter _ => .parameter ()
  | .fullName table => .fullName table
  | .cast t type => .cast t.blank type
  | .aggregate f t => .aggregate f t.blank
  | .countRows => .countRows
  | .distance l r => .distance l.blank r.blank
  | .compare l op r => .compare l.blank op r.blank
  | .both l r => .both l.blank r.blank
  | .either l r => .either l.blank r.blank
  | .group t => .group t.blank
  | .always => .always

theorem Term.length_values_blank (t : Term α) : t.blank.values.length = t.values.length := by
  induction t with
  | cast t type ih | aggregate f t ih | group t ih => exact ih
  | distance l r left right | compare l op r left right | both l r left right
  | either l r left right => simp [Term.blank, values, left, right]
  | _ => rfl

theorem Term.numbered_blank (t : Term α) (bound : Nat) :
    t.blank.numbered bound = t.numbered bound := by
  induction t generalizing bound with
  | cast t type ih | aggregate f t ih | group t ih => simp [Term.blank, numbered, ih]
  | distance l r left right | compare l op r left right | both l r left right
  | either l r left right => simp [Term.blank, numbered, left, right, length_values_blank]
  | _ => rfl

theorem length_values_blank (ts : List (Term α)) :
    (values (ts.map Term.blank)).length = (values ts).length := by
  induction ts with
  | nil => rfl
  | cons t ts ih =>
    simp only [values, List.map_cons, List.flatMap_cons, List.length_append] at ih ⊢
    rw [ih, t.length_values_blank]

theorem texts_blank (ts : List (Term α)) (bound : Nat) :
    texts bound (ts.map Term.blank) = texts bound ts := by
  have terms : ∀ bound, numbered bound (ts.map Term.blank) = numbered bound ts := by
    induction ts with
    | nil => intro bound; rfl
    | cons t ts ih =>
      intro bound
      simp only [List.map_cons, numbered, t.numbered_blank, t.length_values_blank, ih]
  rw [texts, texts, terms]

end Sql

theorem Expr.blank_fields (e : Expr) : e.blank.fields = e.fields := by
  induction e with
  | compare left op right leftIH rightIH => simp [Expr.blank, fields, leftIH, rightIH]
  | aggregate f argument ih => exact ih
  | _ => rfl

namespace Roster

variable {α : Type}

@[simp]
theorem blank_fieldTerm (r : Roster) (owner field : String) :
    (r.blank.fieldTerm owner field : Except Fault (Term α)) = r.fieldTerm owner field := by
  simp only [fieldTerm, lookup, blank_find?, blank_aliasing]
  cases r.find? owner <;> simp

theorem blank_readsStat (r : Roster) (e : Expr) : r.blank.readsStat e.blank = r.readsStat e := by
  cases e with
  | field owner f => simp [Expr.blank, readsStat, Option.any_map]
  | _ => rfl

theorem seasonLiteral?_blank (left right : Expr) (op : Comparison) :
    seasonLiteral? left.blank op right.blank =
      (seasonLiteral? left op right).map fun _ => Value.blank := by
  cases left with
  | name text =>
    by_cases season : text = "season"
    · subst season
      cases op <;> cases right <;> rfl
    · have other : ∀ e, seasonLiteral? (.name text) op e = none := by
        intro e
        unfold seasonLiteral?
        split
        · rename_i same
          exact absurd (Expr.name.inj same) season
        · rfl
      rw [Expr.blank, other, other]
      rfl
  | _ => rfl

theorem compareTerm_blank (r : Roster) (left right : Expr) (op : Comparison)
    {leftTerm leftBlank rightTerm rightBlank : Term Value}
    (first : leftBlank.blank = leftTerm.blank) (second : rightBlank.blank = rightTerm.blank) :
    (r.blank.compareTerm left.blank op right.blank leftBlank rightBlank).blank =
      (r.compareTerm left op right leftTerm rightTerm).blank := by
  have plain : (Term.compare (if r.blank.readsStat left.blank then .cast leftBlank .real
        else leftBlank) op rightBlank).blank =
      (Term.compare (if r.readsStat left then .cast leftTerm .real else leftTerm)
        op rightTerm).blank := by
    rw [blank_readsStat]
    split <;> simp [Term.blank, first, second]
  unfold compareTerm
  simp only
  by_cases equality : op.isEquality
  · rw [if_pos equality, if_pos equality]
    cases left with
    | name a =>
      cases right with
      | name b =>
        simp only [Expr.blank, blank_isPlayer]
        split
        · rfl
        · exact plain
      | _ => exact plain
    | field owner f =>
      cases right with
      | field other g =>
        simp only [Expr.blank]
        split
        · rfl
        · exact plain
      | _ => exact plain
    | _ => exact plain
  · rw [if_neg equality, if_neg equality]
    exact plain

theorem term_blank (r : Roster) (e : Expr) (known : e.seasonsKnown) :
    (r.blank.term e.blank).map Term.blank = (r.term e).map Term.blank := by
  induction e with
  | compare left op right leftIH rightIH =>
    simp only [Expr.seasonsKnown, Bool.and_eq_true] at known
    obtain ⟨⟨season, leftKnown⟩, rightKnown⟩ := known
    rw [← Expr.seasonLiteral?_eq] at season
    rw [Expr.blank, term, term, seasonLiteral?_blank]
    cases asked : seasonLiteral? left op right with
    | some value =>
      -- Conditions on two seasons differ in their days only, and those are parameters.
      rw [asked] at season
      obtain ⟨s, found⟩ := Option.isSome_iff_exists.mp season
      simp only [Option.map_some, found, Value.blank_season, Except.map, seasonTerm, Term.blank]
    | none =>
      simp only [Option.map_none]
      refine map_bind_congr (leftIH leftKnown) fun leftBlank leftTerm first => ?_
      refine map_bind_congr (rightIH rightKnown) fun rightBlank rightTerm second => ?_
      exact congrArg Except.ok (r.compareTerm_blank left right op first second)
  | field owner f => simp only [Expr.blank, term, blank_fieldTerm]
  | literal value kind => rfl
  | name text => rfl
  | aggregate f argument ih =>
    refine map_bind_congr (ih known) fun blank inner same => ?_
    exact congrArg (fun t => Except.ok (Term.aggregate f t)) same

theorem literalCondition_blank (r : Roster) (b : Binding) :
    (r.blank.literalCondition b.blank).map Term.blank = (r.literalCondition b).map Term.blank := by
  obtain ⟨name, kind, target⟩ := b
  cases kind with
  | player => cases target <;> simp [literalCondition, Binding.blank, Target.blank, Term.blank]
  | _ => rfl

theorem relationCondition_blank (r : Roster) (b : Binding) :
    r.blank.relationCondition b.blank = r.relationCondition b := by
  have kinds : ∀ source, (r.blank.find? source).map Binding.kind =
      (r.find? source).map Binding.kind := by
    intro source
    simp [Function.comp_def]
  simp only [relationCondition, Binding.blank_relation?, Binding.blank_kind, Binding.blank_name,
    kinds]

theorem bindingConditions_blank (r : Roster) :
    r.blank.bindingConditions.map Term.blank = r.bindingConditions.map Term.blank := by
  have chain : (r.blank.sameGameChain : List (Term Value)) = r.sameGameChain := by
    simp only [sameGameChain, blank_players]
  simp only [bindingConditions, chain, List.map_append, blank_entries, List.filterMap_map,
    List.map_filterMap, Function.comp_def, literalCondition_blank, relationCondition_blank]

theorem filterTerms_blank (r : Roster) (es : List Expr) (known : es.all Expr.seasonsKnown) :
    (r.blank.filterTerms (es.map Expr.blank)).map (List.map Term.blank) =
      (r.filterTerms es).map (List.map Term.blank) := by
  induction es with
  | nil => rfl
  | cons e es ih =>
    rw [List.all_cons, Bool.and_eq_true] at known
    refine map_bind_congr (r.term_blank e known.1) fun first term same => ?_
    refine map_bind_congr (ih known.2) fun more terms rest => ?_
    exact congrArg Except.ok (List.cons_eq_cons.mpr ⟨same, rest⟩)

theorem conditions_blank (r : Roster) (es : List Expr) (known : es.all Expr.seasonsKnown) :
    (r.blank.conditions (es.map Expr.blank)).map (List.map Term.blank) =
      (r.conditions es).map (List.map Term.blank) := by
  refine map_bind_congr (r.filterTerms_blank es known) fun blanks own same => ?_
  refine congrArg Except.ok ?_
  rw [List.map_append, List.map_append, r.bindingConditions_blank, same]

@[simp]
theorem blank_joins (r : Roster) : r.blank.joins = r.joins := by
  have kinds : r.blank.hasKind = r.hasKind := by
    funext kind
    simp [hasKind, blank_entries, List.any_map, Function.comp_def]
  have shared : r.blank.sharedJoins = r.sharedJoins := by
    rw [sharedJoins, sharedJoins, kinds]
  have stats : ∀ b : Binding, readsStats b.blank = readsStats b := fun b => rfl
  have teams : ∀ b : Binding, joinsTeam b.blank = joinsTeam b := by
    intro b
    simp [joinsTeam]
  have separate : r.blank.variableJoins = r.variableJoins := by
    simp [variableJoins, blank_entries, List.filter_map, Function.comp_def, stats, teams]
  rw [joins, joins, blank_aliasing, shared, separate]

end Roster

theorem blank_referencedFields (q : Query) : q.blank.referencedFields = q.referencedFields := by
  simp only [Query.referencedFields, Query.blank, List.flatMap_map, Expr.blank_fields]

/-- What a plan shows of itself without the values of its parameters. -/
def Plan.visible (p : Plan) : String × Shape × List String × List String × Nat :=
  (p.sql, p.shape, p.referencedFields, p.players, p.parameters.length)

theorem select_visible (s : Select Value) {filters : List (Term Value)}
    (same : filters.map Term.blank = s.filters.map Term.blank) :
    { s with filters := filters }.text = s.text ∧
      { s with filters := filters }.parameters.length = s.parameters.length := by
  constructor
  · have texts : texts 0 filters = texts 0 s.filters := by
      rw [← texts_blank filters, same, texts_blank]
    simp only [Select.text, Select.clauses, texts]
  · simp only [Select.parameters]
    rw [← length_values_blank filters, same, length_values_blank]

theorem gamesSelect_blank (r : Roster) (limit : Option UInt64) (q : Query)
    (filters own : List (Term Value)) : Plan.gamesSelect r.blank limit q.blank filters =
      { Plan.gamesSelect r limit q own with filters := filters } := by
  have standard : Projection.standard r.blank q.blank.referencedFields =
      Projection.standard r q.referencedFields := by
    simp only [Projection.standard, Roster.blank_players, Roster.blank_aliasing,
      blank_referencedFields]
  simp only [Plan.gamesSelect, Roster.blank_joins, standard]
  rfl

theorem averagesSelect_blank (r : Roster) (q : Query) (filters own : List (Term Value)) :
    Plan.averagesSelect r.blank q.blank filters =
      { Plan.averagesSelect r q own with filters := filters } := by
  simp only [Plan.averagesSelect, Roster.blank_joins]
  rfl

theorem ofSelect_blank (r : Roster) (q : Query) (s : Select Value) {filters : List (Term Value)}
    (same : filters.map Term.blank = s.filters.map Term.blank) :
    (Plan.ofSelect r.blank q.blank { s with filters := filters }).visible =
      (Plan.ofSelect r q s).visible := by
  obtain ⟨text, count⟩ := select_visible s same
  simp only [Plan.visible, Plan.ofSelect, text, count, blank_referencedFields,
    Roster.blank_players]
  rfl

theorem ofQuery_blank (r : Roster) (limit : Option UInt64) (q : Query)
    (known : q.filters.all Expr.seasonsKnown) :
    (Plan.ofQuery r.blank limit q.blank).map Plan.visible =
      (Plan.ofQuery r limit q).map Plan.visible := by
  have conditions := r.conditions_blank q.filters known
  have scope : q.blank.scope = q.scope := rfl
  rw [Plan.ofQuery, Plan.ofQuery, scope]
  cases q.scope with
  | games =>
    refine map_bind_congr conditions fun filters own same => congrArg Except.ok ?_
    rw [gamesSelect_blank r limit q filters own]
    exact ofSelect_blank r q _ same
  | averageGames =>
    refine map_bind_congr conditions fun filters own same => congrArg Except.ok ?_
    rw [averagesSelect_blank r q filters own]
    exact ofSelect_blank r q _ same
  | _ => rfl

theorem plan_blank (p : Program) (limit : Option UInt64) (known : p.seasonsKnown) :
    (p.blank.plan limit).map Plan.visible = (p.plan limit).map Plan.visible := by
  have entered : p.blank.roster = p.roster.map Roster.blank :=
    Roster.declareAll_blank .empty p.declarations
  rw [Program.plan, Program.plan, entered]
  cases p.roster with
  | error fault => rfl
  | ok r =>
    obtain ⟨declarations, query⟩ := p
    cases query with
    | none => exact congrArg Except.ok (by simp [Plan.visible, Plan.idle])
    | some q => exact ofQuery_blank r limit q known

/-- Programs that differ in their literals only are at fault alike, or have plans that
    differ in the values of their parameters only. -/
theorem plan_ignores_literals {p q : Program} (same : p.blank = q.blank)
    (first : p.seasonsKnown) (second : q.seasonsKnown) (limit : Option UInt64) :
    (∃ fault, p.plan limit = .error fault ∧ q.plan limit = .error fault) ∨
      ∃ a b, p.plan limit = .ok a ∧ q.plan limit = .ok b ∧ a.sql = b.sql ∧ a.shape = b.shape ∧
        a.referencedFields = b.referencedFields ∧ a.players = b.players ∧
        a.parameters.length = b.parameters.length := by
  have views : (p.plan limit).map Plan.visible = (q.plan limit).map Plan.visible := by
    rw [← plan_blank p limit first, same, plan_blank q limit second]
  cases left : p.plan limit with
  | error fault =>
    cases right : q.plan limit with
    | error other =>
      rw [left, right] at views
      cases views
      exact Or.inl ⟨fault, rfl, rfl⟩
    | ok b =>
      rw [left, right] at views
      cases views
  | ok a =>
    cases right : q.plan limit with
    | error other =>
      rw [left, right] at views
      cases views
    | ok b =>
      rw [left, right] at views
      have equal : a.visible = b.visible := Except.ok.inj views
      simp only [Plan.visible, Prod.mk.injEq] at equal
      exact Or.inr ⟨a, b, rfl, rfl, equal⟩

def pointsProgram (player points season : Value) (kind : LiteralKind) : Program :=
  ⟨[⟨.player, "p", some (.literal player kind)⟩],
    some ⟨.games, [.compare (.field "p" "points") .gt (.literal points kind),
      .compare (.name "season") .eq (.literal season kind)], none, none, some 5⟩⟩

theorem pointsProgram_ignores_literals :
    ∃ a b, (pointsProgram (.string "Curry") (.int 30) (.string "2022-23") .string).plan none =
        .ok a ∧
      (pointsProgram (.bool true) (.string "' OR 1=1") (.string "1999-00") .date).plan none =
        .ok b ∧ a.sql = b.sql ∧ a.parameters.length = b.parameters.length := by
  have planned : (pointsProgram (.string "Curry") (.int 30) (.string "2022-23") .string).plan
      none |>.toBool := by
    decide +kernel
  rcases plan_ignores_literals
      (show (pointsProgram (.string "Curry") (.int 30) (.string "2022-23") .string).blank =
        (pointsProgram (.bool true) (.string "' OR 1=1") (.string "1999-00") .date).blank from rfl)
      (by decide +kernel) (by decide +kernel) none with
    ⟨fault, failed, _⟩ | ⟨a, b, first, second, text, _, _, _, count⟩
  · rw [failed] at planned
    cases planned
  · exact ⟨a, b, first, second, text, count⟩

end BoxScore
