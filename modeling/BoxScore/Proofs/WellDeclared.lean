import BoxScore.Proofs.Declaring

/- Which declarations can be entered, told without a roster. A list of declarations is
   entered if its names are distinct and every variable that is tied to another stands
   behind it in a relation that may be declared; else the first declaration with a fault
   is refused for its foremost fault. -/
namespace BoxScore

theorem Relation.ofSpelling?_spelling (relation : Relation) :
    ofSpelling? relation.spelling = some relation := by
  cases relation <;> decide

theorem Relation.spelling_injective : Function.Injective spelling := by
  intro a b same
  have known := a.ofSpelling?_spelling
  rw [same, b.ofSpelling?_spelling] at known
  exact (Option.some.inj known).symm

theorem Relation.spelling_of_ofSpelling? {text : String} {relation : Relation}
    (known : ofSpelling? text = some relation) : relation.spelling = text := by
  simpa using List.find?_some known

def LinkedTo (before : List Declaration) (kind : Entity) (owner field : String) : Prop :=
  ∃ s ∈ before, s.name = owner ∧ ∃ relation : Relation, relation.spelling = field ∧
    (relation, s.kind, kind) ∈ Relation.compatible

/-- Names are distinct, and whoever is tied to another variable stands behind it. -/
structure WellDeclared (ds : List Declaration) : Prop where
  distinct : (ds.map Declaration.name).Nodup
  tied : ∀ before d after owner field, ds = before ++ d :: after →
    d.initial = some (.field owner field) → LinkedTo before d.kind owner field

namespace Declaration

/-- The faults of a declaration behind others, each told without regard to the rest. -/
inductive Offends (before : List Declaration) (d : Declaration) : Fault → Prop where
  | duplicate {e : Declaration} (earlier : e ∈ before) (same : e.name = d.name) :
      Offends before d (.duplicateVariable d.name)
  | undefined {owner field : String} (initial : d.initial = some (.field owner field))
      (absent : ∀ s ∈ before, s.name ≠ owner) : Offends before d (.undefinedVariable owner)
  | unknown {owner field : String} (initial : d.initial = some (.field owner field))
      (other : ∀ relation : Relation, relation.spelling ≠ field) :
      Offends before d (.unknownRelation field)
  | incompatible {s : Declaration} {relation : Relation}
      (initial : d.initial = some (.field s.name relation.spelling)) (earlier : s ∈ before)
      (apart : (relation, s.kind, d.kind) ∉ Relation.compatible) :
      Offends before d (.incompatibleRelation relation s.kind d.kind)

end Declaration

/-- Of several faults of one declaration the one with the least number is reported. -/
def Fault.rank : Fault → Nat
  | .duplicateVariable _ => 0
  | .undefinedVariable _ => 1
  | .unknownRelation _ => 2
  | _ => 3

namespace Declaration

def RefusedFor (before : List Declaration) (d : Declaration) (fault : Fault) : Prop :=
  d.Offends before fault ∧ ∀ other, d.Offends before other → fault.rank ≤ other.rank

inductive Ties (d : Declaration) : Target → Prop where
  | literal {value : Value} {kind : LiteralKind} (initial : d.initial = some (.literal value kind)) :
      Ties d (.literal value)
  | related {owner : String} {relation : Relation}
      (initial : d.initial = some (.field owner relation.spelling)) :
      Ties d (.related relation owner)
  | unbound (noLiteral : ∀ value kind, d.initial ≠ some (.literal value kind))
      (noField : ∀ owner field, d.initial ≠ some (.field owner field)) : Ties d .unbound

def Enters (d : Declaration) (b : Binding) : Prop :=
  b.name = d.name ∧ b.kind = d.kind ∧ d.Ties b.target

end Declaration

/-- The first declaration with a fault is refused for this one. -/
def FirstFault (ds : List Declaration) (fault : Fault) : Prop :=
  ∃ before d after, ds = before ++ d :: after ∧ WellDeclared before ∧ d.RefusedFor before fault

/- One declaration behind others. -/

theorem no_offence_iff {before : List Declaration} (d : Declaration)
    (distinct : (before.map Declaration.name).Nodup) :
    (∀ fault, ¬ d.Offends before fault) ↔ (∀ e ∈ before, e.name ≠ d.name) ∧
      ∀ owner field, d.initial = some (.field owner field) →
        LinkedTo before d.kind owner field := by
  constructor
  · intro innocent
    refine ⟨fun e earlier same => innocent _ (.duplicate earlier same), ?_⟩
    intro owner field initial
    by_contra apart
    -- Each missing part of the link is a fault of its own.
    have declared : ∃ s ∈ before, s.name = owner := by
      by_contra none
      exact innocent _ (.undefined initial (by simpa using none))
    have known : ∃ relation : Relation, relation.spelling = field := by
      by_contra none
      exact innocent _ (.unknown initial (by simpa using none))
    obtain ⟨s, earlier, rfl⟩ := declared
    obtain ⟨relation, rfl⟩ := known
    refine innocent _ (.incompatible initial earlier fun compatible => apart ?_)
    exact ⟨s, earlier, rfl, relation, rfl, compatible⟩
  · rintro ⟨new, linked⟩ fault offends
    cases offends with
    | duplicate earlier same => exact new _ earlier same
    | undefined initial absent =>
      obtain ⟨s, earlier, name, _⟩ := linked _ _ initial
      exact absent s earlier name
    | unknown initial other =>
      obtain ⟨_, _, _, relation, spelled, _⟩ := linked _ _ initial
      exact other relation spelled
    | @incompatible s relation initial earlier apart =>
      obtain ⟨s', earlier', name, relation', spelled, compatible⟩ := linked _ _ initial
      have sameSource : s' = s := List.inj_on_of_nodup_map distinct earlier' earlier name
      rw [sameSource, Relation.spelling_injective spelled] at compatible
      exact apart compatible

theorem WellDeclared.left {ds es : List Declaration} (whole : WellDeclared (ds ++ es)) :
    WellDeclared ds where
  distinct := by
    have names := whole.distinct
    rw [List.map_append, List.nodup_append] at names
    exact names.1
  tied front e back owner field split :=
    whole.tied front e (back ++ es) owner field (by simp [split])

theorem wellDeclared_concat (before : List Declaration) (d : Declaration) :
    WellDeclared (before ++ [d]) ↔ WellDeclared before ∧ ∀ fault, ¬ d.Offends before fault := by
  constructor
  · intro whole
    have names := whole.distinct
    rw [List.map_append, List.nodup_append] at names
    refine ⟨whole.left, (no_offence_iff d names.1).mpr ⟨?_, ?_⟩⟩
    · intro e earlier
      exact names.2.2 _ (List.mem_map_of_mem earlier) _ (by simp)
    · intro owner field
      exact whole.tied before d [] owner field rfl
  · rintro ⟨first, innocent⟩
    obtain ⟨new, linked⟩ := (no_offence_iff d first.distinct).mp innocent
    constructor
    · rw [List.map_append, List.nodup_append]
      refine ⟨first.distinct, by simp, ?_⟩
      intro name member other single
      obtain ⟨e, earlier, rfl⟩ := List.mem_map.mp member
      simp only [List.map_cons, List.map_nil, List.mem_singleton] at single
      rw [single]
      exact new e earlier
    · intro front e back owner field split initial
      rcases Roster.split_last split with ⟨rfl, rfl⟩ | ⟨rest, inside⟩
      · exact linked owner field initial
      · exact first.tied front e rest owner field inside initial

theorem refusedFor_unique {before : List Declaration} {d : Declaration} {fault other : Fault}
    (distinct : (before.map Declaration.name).Nodup) (first : d.RefusedFor before fault)
    (second : d.RefusedFor before other) : fault = other := by
  have same : fault.rank = other.rank :=
    Nat.le_antisymm (first.2 other second.1) (second.2 fault first.1)
  cases first.1 with
  | duplicate _ _ => cases second.1 <;> simp_all [Fault.rank]
  | undefined _ _ => cases second.1 <;> simp_all [Fault.rank]
  | unknown _ _ => cases second.1 <;> simp_all [Fault.rank]
  | @incompatible s relation initial earlier _ =>
    cases second.1 with
    | @incompatible s' relation' initial' earlier' _ =>
      rw [initial] at initial'
      simp only [Option.some.injEq, Expr.field.injEq] at initial'
      have sameSource := List.inj_on_of_nodup_map distinct earlier earlier' initial'.1
      rw [sameSource, Relation.spelling_injective initial'.2]
    | _ => cases same

/- What rules the faults of lower rank out. -/

namespace Declaration.Offends

variable {before : List Declaration} {d s : Declaration} {fault : Fault}

theorem one_le_rank (offends : d.Offends before fault) (new : ∀ e ∈ before, e.name ≠ d.name) :
    1 ≤ fault.rank := by
  cases offends with
  | duplicate earlier same => exact absurd same (new _ earlier)
  | _ => simp [Fault.rank]

theorem two_le_rank {field : String} (offends : d.Offends before fault)
    (new : ∀ e ∈ before, e.name ≠ d.name) (initial : d.initial = some (.field s.name field))
    (earlier : s ∈ before) : 2 ≤ fault.rank := by
  cases offends with
  | duplicate earlier same => exact absurd same (new _ earlier)
  | undefined again absent =>
    rw [initial] at again
    cases again
    exact absurd rfl (absent s earlier)
  | _ => simp [Fault.rank]

theorem three_le_rank {relation : Relation} (offends : d.Offends before fault)
    (new : ∀ e ∈ before, e.name ≠ d.name)
    (initial : d.initial = some (.field s.name relation.spelling)) (earlier : s ∈ before) :
    3 ≤ fault.rank := by
  have atLeastTwo := offends.two_le_rank new initial earlier
  cases offends with
  | unknown again other =>
    rw [initial] at again
    cases again
    exact absurd rfl (other relation)
  | incompatible => simp [Fault.rank]
  | _ => simp [Fault.rank] at atLeastTwo

end Declaration.Offends

/- The roster keeps what it has to know of the declarations entered so far. -/

namespace Roster

section Step

variable {r : Roster} {before : List Declaration} {d : Declaration}
  (filled : r.entries = before.map Declaration.binding)

include filled

theorem declared_distinct : (before.map Declaration.name).Nodup := by
  have names := r.distinct
  rwa [filled, List.map_map] at names

theorem contains_declared {name : String} :
    r.contains name ↔ ∃ e ∈ before, e.name = name := by
  simp [contains_iff, filled, Declaration.binding]

theorem lookup_declared {owner : String} {b : Binding} (found : r.lookup owner = .ok b) :
    ∃ s ∈ before, s.name = owner ∧ s.kind = b.kind := by
  obtain ⟨member, name⟩ := (find?_eq_some_iff r owner b).mp (find?_of_lookup found)
  rw [filled] at member
  obtain ⟨s, earlier, rfl⟩ := List.mem_map.mp member
  exact ⟨s, earlier, name, rfl⟩

theorem lookup_undeclared {owner : String} {fault : Fault}
    (failed : r.lookup owner = .error fault) :
    fault = .undefinedVariable owner ∧ ∀ s ∈ before, s.name ≠ owner := by
  unfold lookup at failed
  split at failed
  · cases failed
  · rename_i none
    cases failed
    refine ⟨rfl, fun s earlier => ?_⟩
    have entry : s.binding ∈ r.entries := filled ▸ List.mem_map_of_mem earlier
    rw [find?_eq] at none
    simpa [Declaration.binding] using List.find?_eq_none.mp none s.binding entry

theorem target_linked {tied : Target} (found : r.target d.kind d.initial = .ok tied)
    {owner field : String} (initial : d.initial = some (.field owner field)) :
    LinkedTo before d.kind owner field := by
  rw [initial] at found
  simp only [target] at found
  split at found
  · cases found
  · rename_i b lookup
    obtain ⟨s, earlier, name, kind⟩ := lookup_declared filled lookup
    split at found
    · cases found
    · rename_i relation known
      split at found
      · rename_i links
        rw [← kind, Relation.links_iff] at links
        exact ⟨s, earlier, name, relation, Relation.spelling_of_ofSpelling? known, links⟩
      · cases found

theorem target_refused {fault : Fault} (new : ∀ e ∈ before, e.name ≠ d.name)
    (failed : r.target d.kind d.initial = .error fault) : d.RefusedFor before fault := by
  unfold target at failed
  split at failed
  · cases failed
  · rename_i owner field initial
    -- The checks come in the order of the ranks: where one fails, those before it are passed.
    split at failed
    · rename_i lookup
      cases failed
      obtain ⟨rfl, absent⟩ := lookup_undeclared filled lookup
      exact ⟨.undefined initial absent, fun _ offends => offends.one_le_rank new⟩
    · rename_i b lookup
      obtain ⟨s, earlier, rfl, kind⟩ := lookup_declared filled lookup
      split at failed
      · rename_i unknown
        cases failed
        have other : ∀ relation : Relation, relation.spelling ≠ field := by
          rintro relation rfl
          rw [relation.ofSpelling?_spelling] at unknown
          cases unknown
        exact ⟨.unknown initial other, fun _ offends => offends.two_le_rank new initial earlier⟩
      · rename_i relation known
        obtain rfl := Relation.spelling_of_ofSpelling? known
        split at failed
        · cases failed
        · rename_i apart
          cases failed
          rw [← kind, Relation.links_iff] at apart
          rw [← kind]
          exact ⟨.incompatible initial earlier apart,
            fun _ offends => offends.three_le_rank new initial earlier⟩
  · cases failed

theorem declare_decides :
    (∃ longer, r.declare d = .ok (d.binding, longer) ∧
      longer.entries = (before ++ [d]).map Declaration.binding ∧
      ∀ fault, ¬ d.Offends before fault) ∨
    ∃ fault, r.declare d = .error fault ∧ d.RefusedFor before fault := by
  cases declared : r.declare d with
  | ok entered =>
    obtain ⟨b, longer⟩ := entered
    obtain ⟨new, rfl, entries⟩ := declare_ok declared
    refine Or.inl ⟨longer, rfl, by simp [entries, filled], ?_⟩
    rw [no_offence_iff d (declared_distinct filled)]
    constructor
    · intro e earlier same
      have present := (contains_declared filled).mpr ⟨e, earlier, same⟩
      rw [new] at present
      cases present
    · intro owner field initial
      rw [declare_eq] at declared
      rw [new] at declared
      obtain ⟨tied, found, _⟩ := Reading.bind_eq_ok declared
      exact target_linked filled found initial
  | error fault =>
    refine Or.inr ⟨fault, rfl, ?_⟩
    rw [declare_eq] at declared
    split at declared
    · rename_i present
      cases declared
      obtain ⟨e, earlier, same⟩ := (contains_declared filled).mp present
      exact ⟨.duplicate earlier same, fun _ _ => Nat.zero_le _⟩
    · rename_i absent
      have new : ∀ e ∈ before, e.name ≠ d.name := fun e earlier same =>
        absent ((contains_declared filled).mpr ⟨e, earlier, same⟩)
      cases failed : r.target d.kind d.initial with
      | ok tied =>
        rw [failed] at declared
        cases declared
      | error other =>
        rw [failed] at declared
        cases declared
        exact target_refused filled new failed

end Step

/-- A run over declarations behind others that are entered already: either all of them are
    entered, or the first one with a fault is refused. -/
theorem declareAll_decides {r : Roster} {before : List Declaration}
    (filled : r.entries = before.map Declaration.binding) (well : WellDeclared before)
    (ds : List Declaration) :
    (∃ last, r.declareAll ds = .ok last ∧ WellDeclared (before ++ ds)) ∨
    ∃ fault front d back, r.declareAll ds = .error fault ∧ ds = front ++ d :: back ∧
      WellDeclared (before ++ front) ∧ d.RefusedFor (before ++ front) fault := by
  induction ds generalizing r before with
  | nil => exact Or.inl ⟨r, rfl, by simpa using well⟩
  | cons d ds ih =>
    rw [declareAll]
    rcases declare_decides (d := d) filled with
      ⟨longer, entered, entries, innocent⟩ | ⟨fault, failed, refused⟩
    · rw [entered]
      have further := (wellDeclared_concat before d).mpr ⟨well, innocent⟩
      rcases ih entries further with
        ⟨last, all, whole⟩ | ⟨fault, front, e, back, failed, split, first, refused⟩
      · exact Or.inl ⟨last, all, by simpa using whole⟩
      · refine Or.inr ⟨fault, d :: front, e, back, failed, by rw [split]; rfl, ?_, ?_⟩
        · simpa using first
        · simpa using refused
    · rw [failed]
      exact Or.inr ⟨fault, [], d, ds, rfl, rfl, by simpa using well, by simpa using refused⟩

end Roster

def Declaration.RelationKnown (d : Declaration) : Prop :=
  ∀ owner field, d.initial = some (.field owner field) →
    ∃ relation : Relation, relation.spelling = field

theorem ties_iff {d : Declaration} (known : d.RelationKnown) (target : Target) :
    d.Ties target ↔ target = d.binding.target := by
  constructor
  · intro ties
    cases ties with
    | literal initial => simp [Declaration.binding, initial]
    | @related owner relation initial =>
      simp [Declaration.binding, initial, relation.ofSpelling?_spelling]
    | unbound noLiteral noField =>
      unfold Declaration.binding
      split
      · exact absurd ‹_› (noLiteral _ _)
      · exact absurd ‹_› (noField _ _)
      · rfl
  · rintro rfl
    unfold Declaration.binding
    split
    · exact .literal ‹_›
    · rename_i owner field initial
      obtain ⟨relation, rfl⟩ := known _ _ initial
      rw [relation.ofSpelling?_spelling]
      exact .related initial
    · rename_i noLiteral noField
      exact .unbound (fun _ _ same => noLiteral _ _ same) (fun _ _ same => noField _ _ same)

theorem enters_iff {d : Declaration} (known : d.RelationKnown) (b : Binding) :
    d.Enters b ↔ b = d.binding := by
  obtain ⟨name, kind, target⟩ := b
  rw [Declaration.Enters, ties_iff known, Binding.mk.injEq]
  rfl

theorem all_enter_iff {ds : List Declaration} (known : ∀ d ∈ ds, d.RelationKnown)
    (entries : List Binding) :
    List.Forall₂ Declaration.Enters ds entries ↔ entries = ds.map Declaration.binding := by
  induction ds generalizing entries with
  | nil => simp
  | cons d ds ih =>
    rw [List.forall_mem_cons] at known
    cases entries with
    | nil => simp
    | cons b bs =>
      rw [List.forall₂_cons, enters_iff known.1, ih known.2, List.map_cons, List.cons_eq_cons]

theorem WellDeclared.relationKnown {ds : List Declaration} (well : WellDeclared ds) :
    ∀ d ∈ ds, d.RelationKnown := by
  intro d member owner field initial
  obtain ⟨before, after, split⟩ := List.append_of_mem member
  obtain ⟨_, _, _, relation, spelled, _⟩ := well.tied before d after owner field split initial
  exact ⟨relation, spelled⟩

theorem roster_decides (p : Program) :
    (∃ r, p.roster = .ok r ∧ WellDeclared p.declarations) ∨
      ∃ fault, p.roster = .error fault ∧ FirstFault p.declarations fault := by
  have start : WellDeclared [] := ⟨List.nodup_nil, by simp⟩
  rcases Roster.declareAll_decides (r := .empty) rfl start p.declarations with
    ⟨r, entered, well⟩ | ⟨fault, front, d, back, failed, split, first, refused⟩
  · exact Or.inl ⟨r, entered, well⟩
  · exact Or.inr ⟨fault, failed, front, d, back, split, first, refused⟩

theorem wellDeclared_length_le {front part back rest : List Declaration} {d : Declaration}
    {fault : Fault} (offends : d.Offends front fault) (well : WellDeclared part)
    (split : front ++ d :: back = part ++ rest) : part.length ≤ front.length := by
  rcases List.append_eq_append_iff.mp split with ⟨more, rfl, behind⟩ | ⟨more, rfl, _⟩
  · cases more with
    | nil => simp
    | cons e more =>
      obtain rfl : d = e := (List.cons.inj behind).1
      have regrouped : WellDeclared ((front ++ [d]) ++ more) := by simpa using well
      exact absurd offends (((wellDeclared_concat front d).mp regrouped.left).2 fault)
  · simp

theorem FirstFault.not_wellDeclared {ds : List Declaration} {fault : Fault}
    (refused : FirstFault ds fault) : ¬ WellDeclared ds := by
  obtain ⟨front, d, back, rfl, _, offends, _⟩ := refused
  intro well
  have reach := wellDeclared_length_le offends well (List.append_nil _).symm
  rw [List.length_append, List.length_cons] at reach
  omega

theorem FirstFault.unique {ds : List Declaration} {fault other : Fault}
    (first : FirstFault ds fault) (second : FirstFault ds other) : fault = other := by
  obtain ⟨front, d, back, rfl, well, refused⟩ := first
  obtain ⟨front', d', back', split, well', refused'⟩ := second
  have size : front.length = front'.length :=
    Nat.le_antisymm (wellDeclared_length_le refused'.1 well split.symm)
      (wellDeclared_length_le refused.1 well' split)
  obtain ⟨rfl, same⟩ := List.append_inj split size
  obtain rfl : d = d' := (List.cons.inj same).1
  exact refusedFor_unique well.distinct refused refused'

theorem roster_entered_iff (p : Program) :
    (∃ r, p.roster = .ok r) ↔ WellDeclared p.declarations := by
  rcases roster_decides p with ⟨r, entered, well⟩ | ⟨fault, failed, refused⟩
  · exact ⟨fun _ => well, fun _ => ⟨r, entered⟩⟩
  · constructor
    · rintro ⟨r, entered⟩
      rw [failed] at entered
      cases entered
    · intro well
      exact absurd well refused.not_wellDeclared

/-- The declarations of a program are entered exactly if they are well declared, each
    variable as it is declared; else the program is refused for the first fault. -/
theorem roster_decides_declarations (p : Program) :
    ((∃ r, p.roster = .ok r) ↔ WellDeclared p.declarations) ∧
      (∀ r, p.roster = .ok r ↔
        WellDeclared p.declarations ∧ List.Forall₂ Declaration.Enters p.declarations r.entries) ∧
      ∀ fault, p.roster = .error fault ↔ FirstFault p.declarations fault := by
  refine ⟨roster_entered_iff p, fun r => ?_, fun fault => ?_⟩
  · constructor
    · intro entered
      have well := (roster_entered_iff p).mp ⟨r, entered⟩
      exact ⟨well, (all_enter_iff well.relationKnown r.entries).mpr (roster_ok entered)⟩
    · rintro ⟨well, entries⟩
      obtain ⟨s, entered⟩ := (roster_entered_iff p).mpr well
      have same : r = s := Roster.ext_entries <|
        ((all_enter_iff well.relationKnown r.entries).mp entries).trans (roster_ok entered).symm
      rw [same, entered]
  · rcases roster_decides p with ⟨r, entered, well⟩ | ⟨other, failed, refused⟩
    · rw [entered]
      constructor
      · intro failed
        cases failed
      · intro refused
        exact absurd well refused.not_wellDeclared
    · rw [failed]
      constructor
      · intro same
        cases same
        exact refused
      · intro again
        rw [refused.unique again]

example : Program.roster ⟨[⟨.player, "p", none⟩, ⟨.team, "p", some (.field "q" "coach")⟩,
    ⟨.player, "t", some (.field "p" "team")⟩], none⟩ = .error (.duplicateVariable "p") := by
  decide

end BoxScore
