import BoxScore.Proofs.JoinedTables

/- The conditions that put all players of a statement into one game. They equate the games
   of neighbours among the sorted players, which is enough to make all games equal, and
   not enough as soon as one of them is left out. -/
namespace BoxScore

open Sql

/-- An equation between two columns that have the same value in a row; `cell` is the value
    of a column of a joined table in this row. -/
def Sql.Term.Equates {α γ : Type} (cell : String → String → γ) (t : Term α) : Prop :=
  ∃ table column other name,
    t = .compare (.column table column) .eq (.column other name) ∧
      cell table column = cell other name

theorem plan_players {r : Roster} {limit : Option UInt64} {q : Option Query} {plan : Plan}
    (planned : Plan.ofQuery? r limit q = .ok plan) : plan.players = Names.sorted r.players := by
  cases q with
  | none =>
    cases planned
    rfl
  | some q =>
    obtain ⟨_, own, _, rfl⟩ := ofQuery_ok planned
    rfl

namespace Roster

variable {α γ : Type} {r : Roster}

def Places (r : Roster) (game : String → γ) (cell : String → String → γ) : Prop :=
  ∀ p ∈ r.players, cell (statsAlias p) "gameId" = game p

def Together (r : Roster) (game : String → γ) : Prop :=
  ∀ p ∈ r.players, ∀ q ∈ r.players, game p = game q

theorem sameGame_equates (cell : String → String → γ) (a b : String) :
    (sameGame a b : Term α).Equates cell ↔
      cell (statsAlias a) "gameId" = cell (statsAlias b) "gameId" := by
  constructor
  · rintro ⟨table, column, other, name, same, equal⟩
    cases same
    exact equal
  · intro equal
    exact ⟨_, _, _, _, rfl, equal⟩

theorem sameGame_text (hole : α → String) (a b : String) :
    (sameGame a b : Term α).text hole = a ++ "_stats.gameId = " ++ b ++ "_stats.gameId" := by
  have left : "_stats" ++ "." ++ "gameId" ++ " " ++ "=" ++ " " = "_stats.gameId = " := by decide
  have right : "_stats" ++ "." ++ "gameId" = "_stats.gameId" := by decide
  rw [← left, ← right]
  simp only [sameGame, Term.text, statsAlias, Comparison.symbol, String.append_assoc]

theorem sortedPlayers_perm (r : Roster) : (Names.sorted r.players).Perm r.players :=
  Names.sorted_perm (r.filtered_names_distinct _)

theorem sortedPlayers_distinct (r : Roster) : (Names.sorted r.players).Nodup :=
  r.sortedPlayers_perm.nodup_iff.mpr (r.filtered_names_distinct _)

theorem sameGameChain_length (r : Roster) :
    (r.sameGameChain : List (Term α)).length = r.players.length - 1 := by
  rw [← r.sortedPlayers_perm.length_eq]
  simp [sameGameChain]

theorem sameGameChain_texts (r : Roster) (hole : α → String) :
    (r.sameGameChain : List (Term α)).map (Term.text hole) =
      (Names.sorted r.players).zipWith
        (fun a b => a ++ "_stats.gameId = " ++ b ++ "_stats.gameId")
        (Names.sorted r.players).tail := by
  simp only [sameGameChain, List.zip_eq_zipWith, List.map_zipWith, sameGame_text]

theorem sameGameChain_congr {s : Roster} (same : ∀ n, n ∈ r.players ↔ n ∈ s.players) :
    (r.sameGameChain : List (Term α)) = s.sameGameChain := by
  rw [sameGameChain, sameGameChain, Names.sorted_congr same]

theorem forall_neighbours_iff (names : List String) (game : String → γ) :
    (∀ pair ∈ names.zip names.tail, game pair.1 = game pair.2) ↔
      ∀ a ∈ names, ∀ b ∈ names, game a = game b := by
  induction names with
  | nil => simp
  | cons a names ih =>
    cases names with
    | nil => simp
    | cons b names =>
      rw [List.tail_cons] at ih ⊢
      rw [List.zip_cons_cons, List.forall_mem_cons, ih]
      constructor
      · rintro ⟨first, rest⟩
        have toNext : ∀ c ∈ a :: b :: names, game c = game b := by
          intro c member
          rcases List.mem_cons.mp member with rfl | later
          · exact first
          · exact rest c later b List.mem_cons_self
        intro c inside d also
        rw [toNext c inside, toNext d also]
      · intro all
        refine ⟨all a (by simp) b (by simp), ?_⟩
        intro c inside d also
        exact all c (List.mem_cons_of_mem a inside) d (List.mem_cons_of_mem a also)

theorem sameGameChain_complete {game : String → γ} {cell : String → String → γ}
    (placed : r.Places game cell) :
    (∀ t ∈ (r.sameGameChain : List (Term α)), t.Equates cell) ↔ r.Together game := by
  have neighbours := forall_neighbours_iff (Names.sorted r.players)
    fun p => cell (statsAlias p) "gameId"
  simp only [sameGameChain, List.forall_mem_map, sameGame_equates]
  rw [neighbours]
  constructor
  · intro all p first q second
    rw [← placed p first, ← placed q second]
    exact all p (Names.mem_sorted.mpr first) q (Names.mem_sorted.mpr second)
  · intro together p first q second
    have first := Names.mem_sorted.mp first
    have second := Names.mem_sorted.mp second
    rw [placed p first, placed q second]
    exact together p first q second

theorem sameGameChain_getElem (r : Roster) {j : Nat}
    (inside : j + 1 < (Names.sorted r.players).length)
    (within : j < (r.sameGameChain : List (Term α)).length) :
    (r.sameGameChain : List (Term α))[j] =
      sameGame (Names.sorted r.players)[j] (Names.sorted r.players)[j + 1] := by
  simp [sameGameChain]

theorem sameGameChain_minimal (r : Roster) {i : Nat}
    (within : i < (r.sameGameChain : List (Term α)).length) :
    ∃ (game : String → Bool) (cell : String → String → Bool), r.Places game cell ∧
      (∀ t ∈ (r.sameGameChain : List (Term α)).eraseIdx i, t.Equates cell) ∧
      ¬ r.Together game := by
  have size : (r.sameGameChain : List (Term α)).length = (Names.sorted r.players).length - 1 := by
    rw [r.sameGameChain_length, r.sortedPlayers_perm.length_eq]
  let tables := (Names.sorted r.players).map statsAlias
  have number : ∀ j (inside : j < (Names.sorted r.players).length),
      tables.idxOf (statsAlias (Names.sorted r.players)[j]) = j := by
    intro j inside
    have distinct : tables.Nodup := r.sortedPlayers_distinct.map statsAlias_injective
    have found := distinct.idxOf_getElem j (by simpa [tables] using inside)
    simpa [tables] using found
  refine ⟨fun p => decide (tables.idxOf (statsAlias p) ≤ i),
    fun table _ => decide (tables.idxOf table ≤ i), fun p _ => rfl, ?_, ?_⟩
  · intro t kept
    obtain ⟨j, bound, other, rfl⟩ := List.mem_eraseIdx_iff_getElem.mp kept
    rw [r.sameGameChain_getElem (by omega) bound, sameGame_equates, number j (by omega),
      number (j + 1) (by omega)]
    simp only [decide_eq_decide]
    omega
  · intro together
    have first : (Names.sorted r.players)[i] ∈ r.players :=
      Names.mem_sorted.mp (List.getElem_mem (by omega))
    have second : (Names.sorted r.players)[i + 1] ∈ r.players :=
      Names.mem_sorted.mp (List.getElem_mem (by omega))
    have same := together _ first _ second
    simp only [decide_eq_decide, number i (by omega), number (i + 1) (by omega)] at same
    omega

/-- One condition fewer than there are players, each between neighbours among the players
    of a plan in the order of their bytes. The conditions hold in a row exactly if all
    players are in one game there, and none of them can be spared. -/
structure ChainsPlayers (r : Roster) : Prop where
  count : (r.sameGameChain : List Fixed).length = r.players.length - 1
  neighbours : ∀ limit q plan, Plan.ofQuery? r limit q = .ok plan →
    plan.players.Perm r.players ∧ plan.players.Pairwise (Names.bytes · < Names.bytes ·) ∧
      (r.sameGameChain : List Fixed).map Fixed.text =
        plan.players.zipWith (fun a b => a ++ "_stats.gameId = " ++ b ++ "_stats.gameId")
          plan.players.tail
  complete : ∀ {γ : Type} (game : String → γ) (cell : String → String → γ),
    r.Places game cell →
      ((∀ t ∈ (r.sameGameChain : List Fixed), t.Equates cell) ↔ r.Together game)
  minimal : ∀ i < (r.sameGameChain : List Fixed).length,
    ∃ (game : String → Bool) (cell : String → String → Bool), r.Places game cell ∧
      (∀ t ∈ (r.sameGameChain : List Fixed).eraseIdx i, t.Equates cell) ∧ ¬ r.Together game

end Roster

/-- The chain of a roster ties its players into one game, with no condition too many, and
    is that of every roster with the same players. -/
theorem same_game_chain_exact (r : Roster) :
    r.ChainsPlayers ∧ ∀ s : Roster, (∀ n, n ∈ s.players ↔ n ∈ r.players) →
      (s.sameGameChain : List Fixed) = r.sameGameChain := by
  refine ⟨⟨r.sameGameChain_length, ?_, ?_, ?_⟩, ?_⟩
  · intro limit q plan planned
    rw [plan_players planned]
    exact ⟨r.sortedPlayers_perm, Names.sorted_bytes _, r.sameGameChain_texts Empty.elim⟩
  · intro γ game cell placed
    exact Roster.sameGameChain_complete placed
  · intro i within
    exact r.sameGameChain_minimal within
  · intro s same
    exact Roster.sameGameChain_congr same

end BoxScore
