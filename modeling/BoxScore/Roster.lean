import BoxScore.Fault
import BoxScore.Query

/- The variables of a program in the order of their first entry, one for each name. -/
namespace BoxScore

inductive Target where
  | unbound
  | literal (value : Value)
  | related (relation : Relation) (source : String)
  deriving DecidableEq, Repr

structure Binding where
  name : String
  kind : Entity
  target : Target
  deriving DecidableEq, Repr

namespace Binding

def relation? (b : Binding) : Option (Relation × String) :=
  match b.target with
  | .related relation source => some (relation, source)
  | _ => none

def isRelated (b : Binding) : Bool := b.relation?.isSome

def isRelatedBy (b : Binding) (relation : Relation) : Bool :=
  b.relation?.any (·.1 == relation)

def isPlayer (b : Binding) : Bool := b.kind == .player

end Binding

/-- Variables in slots, and the slot of each name. No two slots hold the same name. -/
structure Roster where
  entries : List Binding
  slots : List (String × Nat)
  distinct : (entries.map Binding.name).Nodup
  indexed : slots = (entries.map Binding.name).zipIdx
  deriving DecidableEq

namespace Roster

def empty : Roster := ⟨[], [], List.nodup_nil, rfl⟩

def slot? (r : Roster) (name : String) : Option Nat := r.slots.lookup name

theorem lookup_zipIdx (entries : List Binding) (first : Nat) (name : String) :
    ((entries.map Binding.name).zipIdx first).lookup name =
      (entries.findIdx? (·.name == name)).map (· + first) := by
  induction entries generalizing first with
  | nil => rfl
  | cons b entries ih =>
    rw [List.map_cons, List.zipIdx_cons, List.lookup_cons, List.findIdx?_cons]
    by_cases same : b.name = name
    · simp [same]
    · have other : (name == b.name) = false := by simpa using Ne.symm same
      have skipped : (b.name == name) = false := by simpa using same
      simp [other, skipped, ih, Function.comp_def, Nat.add_assoc, Nat.add_comm 1]

theorem slot?_eq (r : Roster) (name : String) :
    r.slot? name = r.entries.findIdx? (·.name == name) := by
  rw [slot?, r.indexed, lookup_zipIdx]
  simp

theorem slot?_eq_some {r : Roster} {name : String} {slot : Nat} (found : r.slot? name = some slot) :
    ∃ inside : slot < r.entries.length, (r.entries.get ⟨slot, inside⟩).name = name := by
  rw [slot?_eq, List.findIdx?_eq_some_iff_getElem] at found
  obtain ⟨inside, named, _⟩ := found
  exact ⟨inside, by simpa using named⟩

theorem slot?_eq_none_iff {r : Roster} {name : String} :
    r.slot? name = none ↔ ∀ b ∈ r.entries, b.name ≠ name := by
  simp [slot?_eq]

def find? (r : Roster) (name : String) : Option Binding :=
  match found : r.slot? name with
  | some slot => some (r.entries.get ⟨slot, (slot?_eq_some found).1⟩)
  | none => none

theorem find?_eq (r : Roster) (name : String) :
    r.find? name = r.entries.find? (·.name == name) := by
  rw [List.find?_eq_bind_findIdx?_getElem?, ← slot?_eq]
  unfold find?
  split
  · rename_i slot found
    simp [found, (slot?_eq_some found).1]
  · rename_i absent
    simp [absent]

def lookup (r : Roster) (name : String) : Except Fault Binding :=
  match r.find? name with
  | some b => .ok b
  | none => .error (.undefinedVariable name)

def contains (r : Roster) (name : String) : Bool := (r.slot? name).isSome

theorem contains_iff {r : Roster} {name : String} :
    r.contains name ↔ ∃ b ∈ r.entries, b.name = name := by
  simp [contains, slot?_eq]

theorem slot?_of_not_contains {r : Roster} {name : String} (new : r.contains name = false) :
    r.slot? name = none := by
  simpa [contains] using new

theorem replaced_names {r : Roster} {b : Binding} {slot : Nat}
    (found : r.slot? b.name = some slot) :
    (r.entries.set slot b).map Binding.name = r.entries.map Binding.name := by
  obtain ⟨inside, named⟩ := slot?_eq_some found
  have within : slot < (r.entries.map Binding.name).length := by simpa using inside
  have held : (r.entries.map Binding.name)[slot] = b.name := by simpa using named
  rw [List.map_set, ← held, List.set_getElem_self]

theorem appended_distinct {r : Roster} {b : Binding} (new : r.slot? b.name = none) :
    ((r.entries ++ [b]).map Binding.name).Nodup := by
  rw [List.map_append, List.nodup_append]
  refine ⟨r.distinct, by simp, ?_⟩
  intro name member other single same
  simp only [List.map_cons, List.map_nil, List.mem_singleton] at single
  obtain ⟨e, present, rfl⟩ := List.mem_map.mp member
  exact slot?_eq_none_iff.mp new e present (same.trans single)

theorem appended_indexed (r : Roster) (b : Binding) :
    r.slots ++ [(b.name, r.entries.length)] = ((r.entries ++ [b]).map Binding.name).zipIdx := by
  rw [List.map_append, List.zipIdx_append, ← r.indexed]
  simp

/-- A variable with a name that is on the roster takes the slot of that name; any other
    gets the next slot. -/
def insert (r : Roster) (b : Binding) : Roster :=
  match found : r.slot? b.name with
  | some slot =>
    ⟨r.entries.set slot b, r.slots, by rw [replaced_names found]; exact r.distinct,
      by rw [replaced_names found]; exact r.indexed⟩
  | none =>
    ⟨r.entries ++ [b], r.slots ++ [(b.name, r.entries.length)], appended_distinct found,
      appended_indexed r b⟩

theorem insert_entries (r : Roster) (b : Binding) : (r.insert b).entries =
    match r.slot? b.name with
    | some slot => r.entries.set slot b
    | none => r.entries ++ [b] := by
  unfold insert
  split <;> simp_all

def ofBindings (bs : List Binding) : Roster := bs.foldl insert empty

def size (r : Roster) : Nat := r.entries.length

def isEmpty (r : Roster) : Bool := r.entries.isEmpty

def players (r : Roster) : List String := (r.entries.filter Binding.isPlayer).map Binding.name

def playerCount (r : Roster) : Nat := r.entries.countP Binding.isPlayer

@[simp]
theorem playerCount_eq (r : Roster) : r.playerCount = r.players.length := by
  simp [playerCount, players, List.countP_eq_length_filter]

def hasRelated (r : Roster) : Bool := r.entries.any Binding.isRelated

def isPlayer (r : Roster) (name : String) : Bool := (r.find? name).any Binding.isPlayer

/-- What a declaration ties its variable to. Only a bare literal or a relation of a
    variable on the roster ties it to anything. -/
def target (r : Roster) (kind : Entity) : Option Expr → Except Fault Target
  | some (.literal value _) => .ok (.literal value)
  | some (.field owner name) =>
    match r.lookup owner with
    | .error fault => .error fault
    | .ok source =>
      match Relation.ofSpelling? name with
      | none => .error (.unknownRelation name)
      | some relation =>
        if relation.links source.kind kind then .ok (.related relation owner)
        else .error (.incompatibleRelation relation source.kind kind)
  | _ => .ok .unbound

def declare (r : Roster) (d : Declaration) : Except Fault (Binding × Roster) :=
  if r.contains d.name then .error (.duplicateVariable d.name)
  else do
    let target ← r.target d.kind d.initial
    let longer := r.insert ⟨d.name, d.kind, target⟩
    let b ← longer.lookup d.name
    return (b, longer)

theorem lookup_insert_of_not_contains {r : Roster} {b : Binding}
    (new : r.contains b.name = false) : (r.insert b).lookup b.name = .ok b := by
  have absent := slot?_of_not_contains new
  have others : r.entries.find? (·.name == b.name) = none := by
    simpa using slot?_eq_none_iff.mp absent
  rw [lookup, find?_eq, insert_entries, absent]
  simp [others]

/-- A variable that was entered is found again, so its look-up is never at fault. -/
theorem declare_eq (r : Roster) (d : Declaration) : r.declare d =
    if r.contains d.name then .error (.duplicateVariable d.name)
    else do
      let target ← r.target d.kind d.initial
      return (⟨d.name, d.kind, target⟩, r.insert ⟨d.name, d.kind, target⟩) := by
  unfold declare
  split
  · rfl
  · rename_i new
    cases r.target d.kind d.initial with
    | error fault => rfl
    | ok target =>
      have found : (r.insert ⟨d.name, d.kind, target⟩).lookup d.name =
          .ok ⟨d.name, d.kind, target⟩ :=
        lookup_insert_of_not_contains (by simpa using new)
      simp only [bind, Except.bind, found]

def declareAll (r : Roster) : List Declaration → Except Fault Roster
  | [] => .ok r
  | d :: ds => do
    let (_, r) ← r.declare d
    r.declareAll ds

def declareEach (r : Roster) : List Declaration → List (Except Fault Binding) × Roster
  | [] => ([], r)
  | d :: ds =>
    match r.declare d with
    | .ok (b, longer) =>
      let (results, last) := longer.declareEach ds
      (.ok b :: results, last)
    | .error fault =>
      let (results, last) := r.declareEach ds
      (.error fault :: results, last)

end Roster

def Program.roster (p : Program) : Except Fault Roster := Roster.empty.declareAll p.declarations

end BoxScore
