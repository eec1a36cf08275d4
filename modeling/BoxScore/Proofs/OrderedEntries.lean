import BoxScore.Proofs.Declaring
import Mathlib.Data.List.Induction

/- A roster is an ordered map from names to variables. Whatever is entered, and however
   often under one name, it holds one variable for each name: the names stand in the order
   in which they first came, and each has the variable that was entered under it last. The
   slots are kept beside the variables and never point anywhere else. -/
namespace BoxScore.Roster

def latest? (bs : List Binding) (name : String) : Option Binding :=
  bs.reverse.find? (·.name == name)

def lastOfEach (bs : List Binding) : List Binding :=
  (bs.map Binding.name).eraseDups.filterMap (latest? bs)

theorem latest?_concat (bs : List Binding) (b : Binding) (name : String) :
    latest? (bs ++ [b]) name = if b.name = name then some b else latest? bs name := by
  by_cases same : b.name = name
  · simp [latest?, same]
  · simp [latest?, same]

theorem eraseDups_concat (names : List String) (name : String) :
    (names ++ [name]).eraseDups =
      if name ∈ names then names.eraseDups else names.eraseDups ++ [name] := by
  rw [List.eraseDups_append]
  by_cases earlier : name ∈ names
  · simp [earlier, List.removeAll]
  · simp [earlier, List.removeAll, List.eraseDups_cons]

/- One step: what an entry does to the variables, to look-up and to the names. -/

theorem mem_insert_self (r : Roster) (b : Binding) : b ∈ (r.insert b).entries := by
  rw [insert_entries]
  cases found : r.slot? b.name with
  | some slot =>
    obtain ⟨inside, _⟩ := slot?_eq_some found
    exact List.mem_set inside b
  | none => simp

theorem mem_insert_of_mem {r : Roster} {b c : Binding} (entry : c ∈ r.entries)
    (other : c.name ≠ b.name) : c ∈ (r.insert b).entries := by
  rw [insert_entries]
  cases found : r.slot? b.name with
  | some slot =>
    obtain ⟨inside, named⟩ := slot?_eq_some found
    obtain ⟨i, held⟩ := List.mem_iff_getElem?.mp entry
    have apart : slot ≠ i := by
      rintro rfl
      rw [List.getElem?_eq_getElem inside] at held
      exact other (by rw [← Option.some.inj held]; exact named)
    exact List.mem_iff_getElem?.mpr ⟨i, by simp only [List.getElem?_set_ne apart, held]⟩
  | none => exact List.mem_append_left _ entry

theorem eq_or_mem_of_mem_insert {r : Roster} {b c : Binding}
    (entry : c ∈ (r.insert b).entries) : c = b ∨ c ∈ r.entries := by
  rw [insert_entries] at entry
  cases found : r.slot? b.name with
  | some slot =>
    rw [found] at entry
    exact (List.mem_or_eq_of_mem_set entry).symm
  | none =>
    rw [found] at entry
    rcases List.mem_append.mp entry with old | new
    · exact Or.inr old
    · exact Or.inl (List.mem_singleton.mp new)

theorem mem_insert_iff {r : Roster} {b c : Binding} :
    c ∈ (r.insert b).entries ↔ c = b ∨ (c ∈ r.entries ∧ c.name ≠ b.name) := by
  constructor
  · intro entry
    by_cases same : c.name = b.name
    · exact Or.inl
        (List.inj_on_of_nodup_map (r.insert b).distinct entry (mem_insert_self r b) same)
    · rcases eq_or_mem_of_mem_insert entry with new | old
      · exact Or.inl new
      · exact Or.inr ⟨old, same⟩
  · rintro (rfl | ⟨entry, other⟩)
    · exact mem_insert_self r c
    · exact mem_insert_of_mem entry other

theorem find?_insert (r : Roster) (b : Binding) (name : String) :
    (r.insert b).find? name = if b.name = name then some b else r.find? name := by
  apply Option.ext
  intro c
  rw [find?_eq_some_iff, mem_insert_iff]
  by_cases same : b.name = name
  · rw [if_pos same, Option.some.injEq]
    constructor
    · rintro ⟨rfl | ⟨_, other⟩, named⟩
      · rfl
      · exact absurd (named.trans same.symm) other
    · rintro rfl
      exact ⟨Or.inl rfl, same⟩
  · rw [if_neg same, find?_eq_some_iff]
    constructor
    · rintro ⟨rfl | ⟨entry, _⟩, named⟩
      · exact absurd named same
      · exact ⟨entry, named⟩
    · rintro ⟨entry, named⟩
      exact ⟨Or.inr ⟨entry, fun equal => same (equal.symm.trans named)⟩, named⟩

theorem names_insert (r : Roster) (b : Binding) : (r.insert b).entries.map Binding.name =
    if r.contains b.name then r.entries.map Binding.name
    else r.entries.map Binding.name ++ [b.name] := by
  rw [insert_entries, contains]
  cases found : r.slot? b.name with
  | some slot => exact replaced_names found
  | none => exact List.map_append

/- The whole run, by induction on the entries from the last one back. -/

theorem ofBindings_concat (bs : List Binding) (b : Binding) :
    ofBindings (bs ++ [b]) = (ofBindings bs).insert b := by
  simp [ofBindings]

theorem find?_ofBindings (bs : List Binding) (name : String) :
    (ofBindings bs).find? name = latest? bs name := by
  induction bs using List.reverseRecOn with
  | nil => rfl
  | append_singleton bs b ih => rw [ofBindings_concat, find?_insert, latest?_concat, ih]

theorem names_ofBindings (bs : List Binding) :
    (ofBindings bs).entries.map Binding.name = (bs.map Binding.name).eraseDups := by
  induction bs using List.reverseRecOn with
  | nil => rfl
  | append_singleton bs b ih =>
    -- A name is on the roster if it was entered, since the names are the entered ones.
    have known : (ofBindings bs).contains b.name ↔ b.name ∈ bs.map Binding.name := by
      rw [← List.mem_eraseDups, ← ih, contains_iff, List.mem_map]
    rw [ofBindings_concat, names_insert, ih, List.map_append, List.map_singleton,
      eraseDups_concat]
    simp only [known]

theorem entries_eq_filterMap (r : Roster) :
    (r.entries.map Binding.name).filterMap r.find? = r.entries := by
  have each : ∀ b ∈ r.entries, (r.find? ∘ Binding.name) b = some b := fun b entry =>
    (find?_eq_some_iff r b.name b).mpr ⟨entry, rfl⟩
  rw [List.filterMap_map, List.filterMap_congr each, List.filterMap_some]

theorem entries_ofBindings (bs : List Binding) : (ofBindings bs).entries = lastOfEach bs := by
  have found : (ofBindings bs).find? = latest? bs := funext (find?_ofBindings bs)
  rw [lastOfEach, ← names_ofBindings, ← found, entries_eq_filterMap]

theorem mem_slots_iff {r : Roster} {name : String} {slot : Nat} :
    (name, slot) ∈ r.slots ↔ ∃ b, r.entries[slot]? = some b ∧ b.name = name := by
  rw [r.indexed, List.mem_zipIdx_iff_getElem?, List.getElem?_map, Option.map_eq_some_iff]

/-- A roster into which some variables were entered one after the other, as an ordered
    map: what it lists, and what it answers, told by the list. -/
structure Maps (r : Roster) (bs : List Binding) : Prop where
  listed : r.entries = lastOfEach bs
  names : (lastOfEach bs).map Binding.name = (bs.map Binding.name).eraseDups
  once : ((lastOfEach bs).map Binding.name).Nodup
  last : ∀ b ∈ lastOfEach bs, latest? bs b.name = some b
  find? : ∀ name, r.find? name = (lastOfEach bs).find? (·.name == name)
  contains : ∀ name, r.contains name = (lastOfEach bs).any (·.name == name)
  slots : ∀ name slot, (name, slot) ∈ r.slots ↔
    ∃ b, (lastOfEach bs)[slot]? = some b ∧ b.name = name
  inRange : ∀ name slot, (name, slot) ∈ r.slots → slot < r.entries.length
  size : r.size = (lastOfEach bs).length
  players : r.players = ((lastOfEach bs).filter Binding.isPlayer).map Binding.name
  playerCount : r.playerCount = (lastOfEach bs).countP Binding.isPlayer
  counted : r.playerCount = r.players.length
  hasRelated : r.hasRelated = (lastOfEach bs).any Binding.isRelated

/-- Any row of entries into the empty roster leaves the ordered map of its names. -/
theorem ofBindings_ordered (bs : List Binding) : (ofBindings bs).Maps bs := by
  have listed := entries_ofBindings bs
  refine ⟨listed, ?_, ?_, ?_, ?_, ?_, ?_, ?_, ?_, ?_, ?_, ?_, ?_⟩
  · rw [← listed, names_ofBindings]
  · rw [← listed]
    exact (ofBindings bs).distinct
  · intro b entry
    rw [← listed] at entry
    rw [← find?_ofBindings, find?_eq_some_iff]
    exact ⟨entry, rfl⟩
  · intro name
    rw [← listed, find?_eq]
  · intro name
    rw [← listed, Bool.eq_iff_iff, contains_iff]
    simp
  · intro name slot
    rw [← listed]
    exact mem_slots_iff
  · intro name slot kept
    obtain ⟨b, held, _⟩ := mem_slots_iff.mp kept
    exact (List.getElem?_eq_some_iff.mp held).1
  · rw [← listed]
    rfl
  · rw [← listed]
    rfl
  · rw [← listed]
    rfl
  · exact playerCount_eq _
  · rw [← listed]
    rfl

example : ofBindings [⟨"p", .player, .unbound⟩, ⟨"q", .player, .unbound⟩,
      ⟨"p", .team, .related .team "q"⟩] =
    ⟨[⟨"p", .team, .related .team "q"⟩, ⟨"q", .player, .unbound⟩], [("p", 0), ("q", 1)],
      by decide, by decide⟩ := by
  decide

end BoxScore.Roster
