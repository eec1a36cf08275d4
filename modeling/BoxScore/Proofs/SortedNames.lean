import BoxScore.Plan.Names
import Mathlib.Data.List.Sort
import Mathlib.Data.String.Basic

/- Sorted names stand for a set: they are the names that were put in, each once, and the
   set alone fixes their order, which is that of their bytes. -/
namespace BoxScore.Names

theorem mem_insert {n name : String} {ns : List String} :
    n ∈ insert name ns ↔ n = name ∨ n ∈ ns := by
  induction ns with
  | nil => simp [insert]
  | cons m ns ih =>
    unfold insert
    split
    · exact List.mem_cons
    · rename_i notBelow
      split
      · rw [List.mem_cons, ih, List.mem_cons]
        exact or_left_comm
      · rename_i notAbove
        have same : name = m := le_antisymm (not_lt.mp notAbove) (not_lt.mp notBelow)
        rw [same, List.mem_cons, or_self_left]

theorem insert_increasing (name : String) {ns : List String} (increasing : ns.Pairwise (· < ·)) :
    (insert name ns).Pairwise (· < ·) := by
  induction ns with
  | nil => exact List.pairwise_singleton _ name
  | cons m ns ih =>
    obtain ⟨least, later⟩ := List.pairwise_cons.mp increasing
    unfold insert
    split
    · rename_i below
      refine List.pairwise_cons.mpr ⟨?_, increasing⟩
      intro n member
      rcases List.mem_cons.mp member with rfl | behind
      · exact below
      · exact lt_trans below (least n behind)
    · split
      · rename_i above
        refine List.pairwise_cons.mpr ⟨?_, ih later⟩
        intro n member
        rcases mem_insert.mp member with rfl | behind
        · exact above
        · exact least n behind
      · exact increasing

theorem mem_sorted {n : String} {ns : List String} : n ∈ sorted ns ↔ n ∈ ns := by
  induction ns with
  | nil => rfl
  | cons m ns ih =>
    have inserted : n ∈ sorted (m :: ns) ↔ n = m ∨ n ∈ sorted ns := mem_insert
    rw [inserted, ih, List.mem_cons]

theorem sorted_increasing (ns : List String) : (sorted ns).Pairwise (· < ·) := by
  induction ns with
  | nil => exact .nil
  | cons m ns ih => exact insert_increasing m ih

theorem sorted_congr {ns ms : List String} (same : ∀ n, n ∈ ns ↔ n ∈ ms) :
    sorted ns = sorted ms := by
  apply (sorted_increasing ns).eq_of_mem_iff (sorted_increasing ms)
  intro n
  rw [mem_sorted, mem_sorted, same]

theorem sorted_perm {ns : List String} (distinct : ns.Nodup) : (sorted ns).Perm ns := by
  have once : (sorted ns).Nodup := (sorted_increasing ns).imp fun below => below.ne
  exact (List.perm_ext_iff_of_nodup once distinct).mpr fun _ => mem_sorted

/- Names are compared character by character, which comes to comparing their bytes. -/

def bytes (name : String) : List UInt8 := name.toUTF8.data.toList

theorem bytes_eq (name : String) : bytes name = name.toList.flatMap String.utf8EncodeChar := by
  obtain ⟨cs, rfl⟩ : ∃ cs, name = String.ofList cs := ⟨name.toList, by simp⟩
  rw [bytes, String.toUTF8_eq_toByteArray, String.toByteArray_ofList, List.utf8Encode,
    List.data_toByteArray, String.toList_ofList]

theorem byte_lt_iff {x y : Nat} (first : x < 256) (second : y < 256) (s t : List UInt8) :
    UInt8.ofNat x :: s < UInt8.ofNat y :: t ↔ x < y ∨ (x = y ∧ s < t) := by
  rw [List.cons_lt_cons_iff, UInt8.lt_iff_toNat_lt, ← UInt8.toNat_inj, UInt8.toNat_ofNat',
    UInt8.toNat_ofNat', Nat.mod_eq_of_lt first, Nat.mod_eq_of_lt second]

/-- The bytes of a lower character are lower, whatever follows them. -/
theorem utf8EncodeChar_lt {c d : Char} (below : c < d) (s t : List UInt8) :
    String.utf8EncodeChar c ++ s < String.utf8EncodeChar d ++ t := by
  have less : c.val.toNat < d.val.toNat := below
  have top : d.val.toNat < 1114112 := by
    rcases d.valid with low | ⟨_, high⟩
    · exact Nat.lt_trans low (by decide)
    · exact high
  have groups : ∀ v : Nat, v / 4096 = v / 64 / 64 ∧ v / 262144 = v / 64 / 64 / 64 := by
    intro v
    simp [Nat.div_div_eq_div_mul]
  unfold String.utf8EncodeChar
  simp only [groups]
  generalize c.val.toNat = v at less ⊢
  generalize d.val.toNat = w at less top ⊢
  -- One case for each two lengths. Longer characters begin with greater bytes, and bytes
  -- of characters of one length are the digits of their codes.
  repeat' split
  all_goals simp (disch := omega) only [List.cons_append, byte_lt_iff]
  all_goals omega

theorem bytes_lt {a b : String} (below : a < b) : bytes a < bytes b := by
  rw [bytes_eq, bytes_eq]
  have chars : a.toList < b.toList := String.lt_iff_toList_lt.mp below
  generalize a.toList = cs at chars
  generalize b.toList = ds at chars
  induction chars with
  | @nil d ds =>
    rw [List.flatMap_cons, List.flatMap_nil]
    cases bytes : String.utf8EncodeChar d with
    | nil => exact absurd bytes (by simp)
    | cons byte rest => exact List.nil_lt_cons _ _
  | cons rest ih =>
    rw [List.flatMap_cons, List.flatMap_cons]
    exact List.append_left_lt ih
  | rel lower =>
    rw [List.flatMap_cons, List.flatMap_cons]
    exact utf8EncodeChar_lt lower _ _

theorem bytes_le_iff {a b : String} : bytes a ≤ bytes b ↔ a ≤ b := by
  constructor
  · intro ordered
    by_contra above
    exact List.not_lt.mpr ordered (bytes_lt (not_le.mp above))
  · intro ordered
    rcases eq_or_lt_of_le ordered with rfl | below
    · exact List.le_refl _
    · exact List.le_of_lt (bytes_lt below)

theorem sorted_bytes (ns : List String) : (sorted ns).Pairwise (bytes · < bytes ·) :=
  (sorted_increasing ns).imp bytes_lt

end BoxScore.Names
