import BoxScore.Proofs.Lexemes
import BoxScore.Proofs.Repetition

/- Reading looks one token ahead and takes back nothing that it has read. So what it does
   is settled by the tokens it takes and the first one behind them, and where it refuses a
   token, the tokens in front of that one begin a phrase which can still be finished. -/
namespace BoxScore.Reading

open Token

abbrev Reader (α : Type) := List Token → Attempt (α × List Token)

def Writable (ts : List Token) : Prop := ∀ t ∈ ts, IsLexeme t.kind t.text ∧ t.kind ≠ .newline

def SameHead (ts us : List Token) : Prop :=
  ts.head? = us.head? ∨ (headKind ts = .eof ∧ headKind us = .eof)

/-- What can take the place of `ts` behind a phrase and leave the phrase as it is. -/
def Follows (ts us : List Token) : Prop := ts.head? = us.head? ∨ headKind us = .eof

/-- What a reader does with `ts`, it does with all tokens that are the same up to the one
    it stops at. The end of input stops whatever can be stopped there by a token. -/
inductive Settled {α : Type} (f : Reader α) (ts : List Token) : Prop where
  | read (a : α) (front : List Token) {rest : List Token} (split : ts = front ++ rest)
      (again : ∀ us, Follows rest us → f (front ++ us) = .ok (a, us))
  | refused (expected : String) (front : List Token) {rest : List Token}
      (split : ts = front ++ rest)
      (again : ∀ us, SameHead rest us → f (front ++ us) = .error ⟨expected, us⟩)
      (continued : ∃ more a, Writable more ∧ f (front ++ more) = .ok (a, []))

/-- What a reader does is settled, and the first of the tokens is not refused. -/
structure Deferred {α : Type} (f : Reader α) (ts : List Token) : Prop where
  settled : Settled f ts
  late : ∀ expected, f ts ≠ .error ⟨expected, ts⟩

structure Predictive {α : Type} (f : Reader α) : Prop where
  settled : ∀ ts, Settled f ts
  possible : ∃ more a, Writable more ∧ f more = .ok (a, [])

/-- A reader of phrases that can be left out. -/
structure Optional {α : Type} (f : Reader α) : Prop where
  deferred : ∀ ts, Deferred f ts
  absent : ∃ a, f [] = .ok (a, [])

structure Single {α : Type} (f : Reader α) : Prop where
  settled : ∀ ts, (∃ t us a, ts = t :: us ∧ ∀ vs, f (t :: vs) = .ok (a, vs)) ∨
    ∃ expected, ∀ us, SameHead ts us → f us = .error ⟨expected, us⟩
  possible : ∃ t a, Writable [t] ∧ ∀ vs, f (t :: vs) = .ok (a, vs)

variable {α β : Type} {ts us : List Token}

@[simp]
theorem refuse_bind (expected : String) (rest : List Token) (f : α → Attempt β) :
    refuse expected rest >>= f = refuse expected rest := rfl

theorem writable_nil : Writable [] := by simp [Writable]

theorem headKind_of_head? (same : ts.head? = us.head?) : headKind ts = headKind us := by
  cases ts with
  | nil => rw [List.head?_eq_none_iff.mp same.symm]
  | cons t ts =>
    obtain ⟨rest, rfl⟩ := List.head?_eq_some_iff.mp same.symm
    rfl

namespace SameHead

theorem headKind_eq (same : SameHead ts us) : headKind ts = headKind us := by
  rcases same with equal | ⟨finish, finishToo⟩
  · exact headKind_of_head? equal
  · rw [finish, finishToo]

theorem follows (same : SameHead ts us) : Follows ts us := by
  rcases same with equal | ⟨_, finish⟩
  · exact Or.inl equal
  · exact Or.inr finish

end SameHead

theorem Follows.append (follows : Follows ts us) (front : List Token) :
    Follows (front ++ ts) (front ++ us) := by
  cases front with
  | nil => exact follows
  | cons t front => exact Or.inl rfl

namespace Settled

variable {f : Reader α} {g : α × List Token → Attempt (β × List Token)}

theorem rest_suffix {a : α} {rest : List Token} (settled : Settled f ts)
    (read : f ts = .ok (a, rest)) : rest <:+ ts := by
  cases settled with
  | @read b front last split again =>
    rw [split, again last (Or.inl rfl)] at read
    cases read
    exact ⟨front, split.symm⟩
  | @refused expected front last split again continued =>
    rw [split, again last (Or.inl rfl)] at read
    cases read

theorem refused_suffix {expected : String} {rest : List Token} (settled : Settled f ts)
    (failed : f ts = .error ⟨expected, rest⟩) : rest <:+ ts := by
  cases settled with
  | @read b front last split again =>
    rw [split, again last (Or.inl rfl)] at failed
    cases failed
  | @refused wanted front last split again continued =>
    rw [split, again last (Or.inl rfl)] at failed
    cases failed
    exact ⟨front, split.symm⟩

theorem step {f g : Reader α} {t : Token} (same : ∀ vs, f (t :: vs) = g vs)
    (settled : Settled g us) : Deferred f (t :: us) where
  settled := by
    cases settled with
    | @read a front rest split again =>
      refine .read a (t :: front) (by rw [split]; rfl) ?_
      intro vs follows
      rw [List.cons_append, same, again vs follows]
    | @refused expected front rest split again continued =>
      obtain ⟨more, a, written, finish⟩ := continued
      refine .refused expected (t :: front) (by rw [split]; rfl) ?_ ⟨more, a, written, ?_⟩
      · intro vs head
        rw [List.cons_append, same, again vs head]
      · rw [List.cons_append, same, finish]
  late expected failed := by
    rw [same] at failed
    have shorter := (settled.refused_suffix failed).length_le
    rw [List.length_cons] at shorter
    omega

theorem bind (first : Settled f ts)
    (next : ∀ a rest, f ts = .ok (a, rest) → Deferred (fun us => g (a, us)) rest)
    (absent : ∀ a, ∃ b, g (a, []) = .ok (b, [])) : Settled (fun us => f us >>= g) ts := by
  cases first with
  | @read a front middle split again =>
    have own : f ts = .ok (a, middle) := by rw [split, again middle (Or.inl rfl)]
    obtain ⟨second, late⟩ := next a middle own
    cases second with
    | @read b behind rest splitToo againToo =>
      refine .read b (front ++ behind) (by rw [split, splitToo, List.append_assoc]) ?_
      intro us follows
      have stays : Follows middle (behind ++ us) := splitToo ▸ follows.append behind
      simp only [List.append_assoc, again _ stays]
      exact againToo us follows
    | @refused expected behind rest splitToo againToo continued =>
      refine .refused expected (front ++ behind) (by rw [split, splitToo, List.append_assoc]) ?_ ?_
      · intro us head
        have stays : Follows middle (behind ++ us) := splitToo ▸ head.follows.append behind
        simp only [List.append_assoc, again _ stays]
        exact againToo us head
      · obtain ⟨more, b, written, finish⟩ := continued
        refine ⟨more, b, written, ?_⟩
        -- The second phrase has begun, so its first token stays behind the first phrase.
        have stays : Follows middle (behind ++ more) := by
          cases behind with
          | nil =>
            refine absurd ?_ (late expected)
            rw [splitToo]
            exact againToo rest (Or.inl rfl)
          | cons t behind => exact Or.inl (by rw [splitToo]; rfl)
        simp only [List.append_assoc, again _ stays]
        exact finish
  | @refused expected front rest split again continued =>
    obtain ⟨more, a, written, finish⟩ := continued
    obtain ⟨b, nothing⟩ := absent a
    refine .refused expected front split ?_ ⟨more, b, written, ?_⟩
    · intro us head
      simp only [again us head]
      rfl
    · simp only [finish]
      exact nothing

end Settled

section Sequences

variable {f : Reader α} {g : α × List Token → Attempt (β × List Token)}

theorem Deferred.bind (first : Deferred f ts)
    (next : ∀ a rest, f ts = .ok (a, rest) → Deferred (fun us => g (a, us)) rest)
    (absent : ∀ a, ∃ b, g (a, []) = .ok (b, [])) : Deferred (fun us => f us >>= g) ts where
  settled := first.settled.bind next absent
  late expected failed := by
    cases read : f ts with
    | error r =>
      rw [read] at failed
      cases failed
      exact first.late expected read
    | ok found =>
      obtain ⟨a, rest⟩ := found
      rw [read] at failed
      have second := next a rest read
      -- Nothing lies between the two ends, so the second reader refuses at its start.
      have inner := first.settled.rest_suffix read
      have outer := second.settled.refused_suffix failed
      have same : rest = ts := inner.eq_of_length (le_antisymm inner.length_le outer.length_le)
      exact second.late expected (same ▸ failed)

theorem deferred_pure (a : α) (ts : List Token) : Deferred (fun us => .ok (a, us)) ts where
  settled := .read a [] rfl fun _ _ => rfl
  late _ := by simp

theorem optional_pure (a : α) : Optional fun us => .ok (a, us) :=
  ⟨deferred_pure a, a, rfl⟩

theorem Optional.predictive (optional : Optional f) : Predictive f := by
  obtain ⟨a, nothing⟩ := optional.absent
  exact ⟨fun ts => (optional.deferred ts).settled, [], a, writable_nil, nothing⟩

theorem Predictive.bind (first : Predictive f) (next : ∀ a, Optional fun us => g (a, us)) :
    Predictive fun us => f us >>= g where
  settled ts := (first.settled ts).bind (fun a rest _ => (next a).deferred rest)
    fun a => (next a).absent
  possible := by
    obtain ⟨more, a, written, read⟩ := first.possible
    obtain ⟨b, nothing⟩ := (next a).absent
    refine ⟨more, b, written, ?_⟩
    simp only [read]
    exact nothing

theorem Optional.bind (first : Optional f) (next : ∀ a, Optional fun us => g (a, us)) :
    Optional fun us => f us >>= g where
  deferred ts := (first.deferred ts).bind (fun a rest _ => (next a).deferred rest)
    fun a => (next a).absent
  absent := by
    obtain ⟨a, nothing⟩ := first.absent
    obtain ⟨b, nothingToo⟩ := (next a).absent
    refine ⟨b, ?_⟩
    simp only [nothing]
    exact nothingToo

theorem Single.bind (first : Single f) (next : ∀ a, Predictive fun us => g (a, us)) :
    Predictive fun us => f us >>= g := by
  have possible : ∃ more b, Writable more ∧ f more >>= g = .ok (b, []) := by
    obtain ⟨t, a, writtenFirst, read⟩ := first.possible
    obtain ⟨more, b, written, readToo⟩ := (next a).possible
    refine ⟨t :: more, b, List.forall_mem_cons.mpr ⟨writtenFirst t (by simp), written⟩, ?_⟩
    rw [read]
    exact readToo
  refine ⟨fun ts => ?_, possible⟩
  rcases first.settled ts with ⟨t, us, a, rfl, read⟩ | ⟨expected, failed⟩
  · refine (Settled.step (g := fun us => g (a, us)) (fun vs => ?_) ((next a).settled us)).settled
    rw [read]
    rfl
  · refine .refused expected [] rfl (fun us head => ?_) possible
    simp only [List.nil_append, failed us head]
    rfl

theorem Single.predictive (single : Single f) : Predictive f := by
  have whole := single.bind (g := Except.ok) fun a => (optional_pure a).predictive
  have same : (fun us => f us >>= Except.ok) = f := by
    funext us
    cases f us <;> rfl
  rwa [same] at whole

end Sequences

/- Choices by the first token. -/

structure Opens (start : Token → Option (Reader α)) : Prop where
  notEnd : ∀ t, t.kind = .eof → start t = none
  predictive : ∀ t g, start t = some g → Predictive g

section Choices

variable {f : Reader α} {a : α} {start : Token → Option (Reader α)}

theorem Opens.stops (opens : Opens start) (follows : Follows ts us)
    (closed : ts.head?.bind start = none) : us.head?.bind start = none := by
  rcases follows with same | finish
  · rwa [← same]
  · cases us with
    | nil => rfl
    | cons t us => exact opens.notEnd t finish

theorem Opens.optional (opens : Opens start)
    (choice : ∀ us, f us = match us.head?.bind start with
      | some g => g us.tail
      | none => .ok (a, us)) : Optional f where
  deferred ts := by
    cases opened : ts.head?.bind start with
    | none =>
      refine ⟨.read a [] rfl fun us follows => ?_, by simp [choice, opened]⟩
      rw [List.nil_append, choice, opens.stops follows opened]
    | some g =>
      obtain ⟨t, head, chosen⟩ := Option.bind_eq_some_iff.mp opened
      obtain ⟨us, rfl⟩ := List.head?_eq_some_iff.mp head
      refine Settled.step (g := g) (fun vs => ?_) ((opens.predictive t g chosen).settled us)
      simp [choice, chosen]
  absent := ⟨a, choice []⟩

/-- A loop over phrases that a first token opens: the induction is on the number of
    tokens. -/
theorem Repeats.optional {item? : List Token → Option (Attempt (α × List Token))}
    {loop : List Token → Attempt (List α × List Token)} (repeats : Repeats item? loop)
    (opens : Opens start) (items : ∀ us, item? us = (us.head?.bind start).map (· us.tail)) :
    Optional loop := by
  have stop : ∀ us, us.head?.bind start = none → loop us = .ok ([], us) := by
    intro us opened
    exact repeats.stop (by rw [items, opened]; rfl)
  refine ⟨fun ts => ?_, [], stop [] rfl⟩
  induction size : ts.length using Nat.strongRecOn generalizing ts with
  | ind n ih =>
    cases opened : ts.head?.bind start with
    | none =>
      refine ⟨.read [] [] rfl fun us follows => stop us (opens.stops follows opened), ?_⟩
      simp [stop ts opened]
    | some g =>
      obtain ⟨t, head, chosen⟩ := Option.bind_eq_some_iff.mp opened
      obtain ⟨us, rfl⟩ := List.head?_eq_some_iff.mp head
      have item := (opens.predictive t g chosen).settled us
      refine Settled.step (fun vs => repeats.step (by simp [items, chosen])) (item.bind ?_ ?_)
      · intro a rest read
        have shorter := (item.rest_suffix read).length_le
        rw [List.length_cons] at size
        exact (ih _ (by omega) rest rfl).bind (fun as last _ => deferred_pure (a :: as) last)
          fun as => ⟨a :: as, rfl⟩
      · intro a
        exact ⟨[a], by simp [stop [] rfl]⟩

def behind (kind : Kind) (g : Reader α) (t : Token) : Option (Reader α) :=
  if t.kind = kind then some g else none

variable {kind : Kind} {g : Reader α}

theorem opens_behind (notEnd : kind ≠ .eof) (reads : Predictive g) : Opens (behind kind g) where
  notEnd t finish := if_neg (by rw [finish]; exact notEnd.symm)
  predictive t h chosen := by
    unfold behind at chosen
    split at chosen
    · cases chosen
      exact reads
    · cases chosen

theorem head?_behind (notEnd : kind ≠ .eof) (us : List Token) :
    us.head?.bind (behind kind g) = if headKind us = kind then some g else none := by
  cases us with
  | nil => exact (if_neg notEnd.symm).symm
  | cons t us => rfl

theorem optional_behind (kind : Kind) (notEnd : kind ≠ .eof) (reads : Predictive g)
    (choice : ∀ us, f us = if headKind us = kind then g us.tail else .ok (a, us)) :
    Optional f := by
  refine (opens_behind notEnd reads).optional (a := a) fun us => ?_
  rw [head?_behind notEnd, choice]
  split <;> rfl

theorem Repeats.optional_behind {item? : List Token → Option (Attempt (α × List Token))}
    {loop : List Token → Attempt (List α × List Token)} (repeats : Repeats item? loop)
    (kind : Kind) (notEnd : kind ≠ .eof) (reads : Predictive g)
    (items : ∀ us, item? us = if headKind us = kind then some (g us.tail) else none) :
    Optional loop := by
  refine repeats.optional (opens_behind notEnd reads) fun us => ?_
  rw [head?_behind notEnd, items]
  split <;> rfl

end Choices

/- Readers of one token. -/

def one (item : Token → Except String α) (missing : String) : Reader α
  | [] => refuse missing []
  | t :: rest =>
    match item t with
    | .ok a => .ok (a, rest)
    | .error expected => refuse expected (t :: rest)

theorem one_single {item : Token → Except String α} {missing : String}
    (notEnd : ∀ t, t.kind = .eof → item t = .error missing) {t : Token} {a : α}
    (lexeme : IsLexeme t.kind t.text) (word : t.kind ≠ .newline) (accepted : item t = .ok a) :
    Single (one item missing) where
  settled ts := by
    have finish : ∀ us, headKind us = .eof → one item missing us = .error ⟨missing, us⟩ := by
      intro us head
      cases us with
      | nil => rfl
      | cons t us => simp [one, refuse, notEnd t head]
    cases ts with
    | nil => exact Or.inr ⟨missing, fun us same => finish us same.headKind_eq.symm⟩
    | cons t ts =>
      cases outcome : item t with
      | ok a => exact Or.inl ⟨t, ts, a, rfl, fun vs => by simp [one, outcome]⟩
      | error expected =>
        refine Or.inr ⟨expected, fun us same => ?_⟩
        rcases same with head | ⟨head, headToo⟩
        · obtain ⟨rest, rfl⟩ := List.head?_eq_some_iff.mp head.symm
          simp [one, refuse, outcome]
        · rw [notEnd t head] at outcome
          cases outcome
          exact finish us headToo
  possible := ⟨t, a, by simp [Writable, lexeme, word], fun vs => by simp [one, accepted]⟩

end BoxScore.Reading
