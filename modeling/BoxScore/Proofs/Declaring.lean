import BoxScore.Proofs.Planning
import Mathlib.Data.List.Nodup

/- What holds of a roster however it was filled. Declarations are entered one after the
   other, and those at fault are passed over; the variables entered so far are never
   touched again, and a variable is only ever tied to a player that stands before it. -/
namespace BoxScore

def Relation.compatible : List (Relation × Entity × Entity) :=
  [(.opponent, .player, .player), (.opponent, .player, .team), (.opponent, .player, .opponent),
   (.team, .player, .team), (.played, .player, .player)]

theorem Relation.links_iff (relation : Relation) (source declared : Entity) :
    relation.links source declared ↔ (relation, source, declared) ∈ compatible := by
  cases relation <;> cases source <;> cases declared <;> decide

namespace Roster

/-- Names are distinct and look-up finds what is entered under a name; a variable that is
    tied to another stands behind it, and the other is a player. -/
structure Sound (r : Roster) : Prop where
  distinct : (r.entries.map Binding.name).Nodup
  found : ∀ name b, r.find? name = some b ↔ b ∈ r.entries ∧ b.name = name
  tied : ∀ before b after relation source, r.entries = before ++ b :: after →
    b.relation? = some (relation, source) → ∃ s ∈ before, s.name = source ∧ s.kind = .player ∧
      (relation, s.kind, b.kind) ∈ Relation.compatible

theorem find?_eq_some_iff (r : Roster) (name : String) (b : Binding) :
    r.find? name = some b ↔ b ∈ r.entries ∧ b.name = name := by
  rw [find?_eq]
  constructor
  · intro found
    exact ⟨List.mem_of_find?_eq_some found, by simpa using List.find?_some found⟩
  · rintro ⟨member, named⟩
    cases found : r.entries.find? (·.name == name) with
    | none =>
      have other := List.find?_eq_none.mp found b member
      simp [named] at other
    | some c =>
      have same : c.name = b.name := by
        rw [named]
        simpa using List.find?_some found
      rw [List.inj_on_of_nodup_map r.distinct (List.mem_of_find?_eq_some found) member same]

theorem declared_entry {p : Program} {r : Roster} (entered : p.roster = .ok r) {d : Declaration}
    (declared : d ∈ p.declarations) : d.binding ∈ r.entries := by
  rw [roster_ok entered]
  exact List.mem_map_of_mem declared

theorem find?_declared {p : Program} {r : Roster} (entered : p.roster = .ok r) {d : Declaration}
    (declared : d ∈ p.declarations) : r.find? d.name = some d.binding :=
  (find?_eq_some_iff r d.name d.binding).mpr ⟨declared_entry entered declared, rfl⟩

theorem target_tied {r : Roster} {kind : Entity} {initial : Option Expr} {relation : Relation}
    {source : String} (found : r.target kind initial = .ok (.related relation source)) :
    ∃ s, r.find? source = some s ∧ relation.links s.kind kind := by
  unfold target at found
  split at found
  · cases found
  · split at found
    · cases found
    · rename_i s lookup
      split at found
      · cases found
      · split at found
        · cases found
          exact ⟨s, find?_of_lookup lookup, ‹_›⟩
        · cases found
  · cases found

theorem declare_tied {r longer : Roster} {d : Declaration} {b : Binding} {relation : Relation}
    {source : String} (entered : r.declare d = .ok (b, longer))
    (tied : b.relation? = some (relation, source)) :
    ∃ s, r.find? source = some s ∧ relation.links s.kind b.kind := by
  rw [declare_eq] at entered
  split at entered
  · cases entered
  · obtain ⟨target, found, finish⟩ := Reading.bind_eq_ok entered
    cases finish
    cases target with
    | related own origin =>
      cases tied
      exact target_tied found
    | unbound => cases tied
    | literal value => cases tied

theorem split_last {α : Type} {before after entries : List α} {a last : α}
    (split : entries ++ [last] = before ++ a :: after) :
    (before = entries ∧ a = last) ∨ ∃ rest, entries = before ++ a :: rest := by
  rcases List.eq_nil_or_concat after with rfl | ⟨rest, other, rfl⟩
  · obtain ⟨same, single⟩ := List.append_inj' split rfl
    exact Or.inl ⟨same.symm, (List.cons.inj single).1.symm⟩
  · right
    refine ⟨rest, ?_⟩
    have regrouped : entries ++ [last] = (before ++ a :: rest) ++ [other] := by simp [split]
    exact (List.append_inj' regrouped rfl).1

theorem empty_sound : empty.Sound where
  distinct := List.nodup_nil
  found := find?_eq_some_iff empty
  tied before b after relation source split := by simp [empty] at split

theorem declare_sound {r longer : Roster} {d : Declaration} {b : Binding} (sound : r.Sound)
    (entered : r.declare d = .ok (b, longer)) : longer.Sound where
  distinct := longer.distinct
  found := find?_eq_some_iff longer
  tied := by
    intro before c after relation source split tied
    rw [(declare_ok entered).2.2] at split
    -- Either the split is at the new entry, or all of it but the end lies in the old ones.
    rcases split_last split with ⟨rfl, rfl⟩ | ⟨rest, earlier⟩
    · obtain ⟨s, found, links⟩ := declare_tied entered tied
      obtain ⟨member, name⟩ := (find?_eq_some_iff r source s).mp found
      have compatible := (Relation.links_iff relation s.kind c.kind).mp links
      have player : s.kind = .player := by
        simp only [Relation.compatible] at compatible
        grind
      exact ⟨s, member, name, player, compatible⟩
    · exact sound.tied before c rest relation source earlier tied

theorem declareAll_sound {r last : Roster} {ds : List Declaration} (sound : r.Sound)
    (entered : r.declareAll ds = .ok last) : last.Sound := by
  induction ds generalizing r with
  | nil =>
    cases entered
    exact sound
  | cons d ds ih =>
    obtain ⟨⟨b, longer⟩, first, more⟩ := Reading.bind_eq_ok entered
    exact ih (declare_sound sound first) more

theorem declareEach_sound {r : Roster} (sound : r.Sound) (ds : List Declaration) :
    (r.declareEach ds).2.Sound := by
  induction ds generalizing r with
  | nil => exact sound
  | cons d ds ih =>
    unfold declareEach
    split
    · rename_i entered
      exact ih (declare_sound sound entered)
    · exact ih sound

theorem declareEach_append (r : Roster) (ds es : List Declaration) :
    r.declareEach (ds ++ es) =
      ((r.declareEach ds).1 ++ ((r.declareEach ds).2.declareEach es).1,
        ((r.declareEach ds).2.declareEach es).2) := by
  induction ds generalizing r with
  | nil => rfl
  | cons d ds ih =>
    simp only [List.cons_append, declareEach]
    split
    · simp [ih]
    · simp [ih]

theorem length_declareEach (r : Roster) (ds : List Declaration) :
    (r.declareEach ds).1.length = ds.length := by
  induction ds generalizing r with
  | nil => rfl
  | cons d ds ih =>
    unfold declareEach
    split
    · simp [ih]
    · simp [ih]

def filled (ds : List Declaration) : Roster := (empty.declareEach ds).2

def Extends (r next : Roster) (d : Declaration) : Except Fault Binding → Prop
  | .error fault => r.declare d = .error fault ∧ next = r
  | .ok b => r.declare d = .ok (b, next) ∧ b = d.binding ∧ next.entries = r.entries ++ [b]

theorem declareEach_single (r : Roster) (d : Declaration) :
    ∃ result, (r.declareEach [d]).1 = [result] ∧ r.Extends (r.declareEach [d]).2 d result := by
  unfold declareEach
  split
  · rename_i b longer entered
    exact ⟨.ok b, rfl, entered, (declare_ok entered).2⟩
  · rename_i fault failed
    exact ⟨.error fault, rfl, failed, rfl⟩

/-- Whatever declarations a run has had, the next one leaves a sound roster. A declaration
    at fault leaves the roster that it found, and any other adds its variable at the end. -/
theorem filled_sound_step (before : List Declaration) (d : Declaration)
    (after : List Declaration) :
    (filled (before ++ [d])).Sound ∧ ∃ result,
      (empty.declareEach (before ++ d :: after)).1[before.length]? = some result ∧
      (filled before).Extends (filled (before ++ [d])) d result := by
  refine ⟨declareEach_sound empty_sound _, ?_⟩
  obtain ⟨result, single, step⟩ := declareEach_single (filled before) d
  refine ⟨result, ?_, ?_⟩
  · have whole : (empty.declareEach (before ++ d :: after)).1 =
        (empty.declareEach before).1 ++ ((filled before).declareEach ([d] ++ after)).1 := by
      rw [List.singleton_append, declareEach_append]
      rfl
    rw [whole, declareEach_append, single]
    simp [length_declareEach]
  · have last : filled (before ++ [d]) = ((filled before).declareEach [d]).2 := by
      rw [filled, declareEach_append]
      rfl
    rw [last]
    exact step

end Roster
end BoxScore
