import BoxScore.Proofs.Numerals
import BoxScore.Query.Clause

/- The grammar of programs. A phrase relates the tokens it derives to the tree they stand
   for; nothing is said about how a phrase is found. Line feeds and the end of input are
   no part of any phrase. -/
namespace BoxScore

namespace Reading.Clause

def selection? : Clause → Option Selection
  | .selection s => some s
  | _ => none

def order? : Clause → Option RowOrder
  | .order o => some o
  | _ => none

def limit? : Clause → Option UInt64
  | .limit n => some n
  | _ => none

end Reading.Clause

namespace Grammar

open Token Reading Text

abbrev Phrase (α : Type) := List Token → α → Prop

inductive Many {α : Type} (phrase : Phrase α) : Phrase (List α) where
  | nil : Many phrase [] []
  | cons {ts us : List Token} {a : α} {as : List α} (first : phrase ts a)
      (rest : Many phrase us as) : Many phrase (ts ++ us) (a :: as)

theorem Many.item {α : Type} {phrase : Phrase α} {ts : List Token} {as : List α}
    (derived : Many phrase ts as) : ∀ a ∈ as, ∃ us, us ⊆ ts ∧ phrase us a := by
  induction derived with
  | nil => simp
  | cons first rest ih =>
    intro a member
    rcases List.mem_cons.mp member with rfl | later
    · exact ⟨_, List.subset_append_left _ _, first⟩
    · obtain ⟨us, within, one⟩ := ih a later
      exact ⟨us, fun t inside => List.mem_append_right _ (within inside), one⟩

inductive Maybe {α : Type} (phrase : Phrase α) : Phrase (Option α) where
  | absent : Maybe phrase [] none
  | present {ts : List Token} {a : α} (written : phrase ts a) : Maybe phrase ts (some a)

/-- An operand is one token. A whole number has to be in range, a decimal is the binary
    number nearest to it. -/
inductive IsOperand : Token → Expr → Prop where
  | field {t : Token} {owner name : String} (kind : t.kind = .fieldAccess)
      (parts : t.text = owner ++ "." ++ name) (single : '.' ∉ owner.toList) :
      IsOperand t (.field owner name)
  | integer {t : Token} (kind : t.kind = .number) (digits : IsDigits t.text.toList)
      (inRange : digitsValue t.text.toList ≤ greatestInteger) :
      IsOperand t (.literal (.int (Int64.ofInt (digitsValue t.text.toList))) .number)
  | decimal {t : Token} {whole part : List Char} (kind : t.kind = .number)
      (parts : t.text.toList = whole ++ '.' :: part) (first : IsDigits whole)
      (second : IsDigits part) :
      IsOperand t (.literal
        (.float (.ofDecimal false (digitsValue (whole ++ part)) (-part.length))) .number)
  | string {t : Token} (kind : t.kind = .string) :
      IsOperand t (.literal (.string t.text) .string)
  | canonicalName {t : Token} (kind : t.kind = .canonicalName) :
      IsOperand t (.literal (.string t.text) .canonicalName)
  | date {t : Token} (kind : t.kind = .date) : IsOperand t (.literal (.string t.text) .date)
  | yes {t : Token} (kind : t.kind = .keyword .trueWord) :
      IsOperand t (.literal (.bool true) .boolean)
  | no {t : Token} (kind : t.kind = .keyword .falseWord) :
      IsOperand t (.literal (.bool false) .boolean)
  | gameDate {t : Token} (kind : t.kind = .keyword .gameDate) : IsOperand t (.name t.text)
  | season {t : Token} (kind : t.kind = .keyword .season) : IsOperand t (.name t.text)
  | name {t : Token} (kind : t.kind = .identifier) : IsOperand t (.name t.text)

inductive IsExpression : Phrase Expr where
  | operand {t : Token} {e : Expr} (single : IsOperand t e) : IsExpression [t] e
  | compare {t o u : Token} {left right : Expr} {op : Comparison} (first : IsOperand t left)
      (sign : o.kind = .comparison op) (second : IsOperand u right) :
      IsExpression [t, o, u] (.compare left op right)

inductive IsInitial : Phrase Expr where
  | mk {o : Token} {ts : List Token} {e : Expr} (equals : o.kind = .comparison .eq)
      (expression : IsExpression ts e) : IsInitial (o :: ts) e

inductive IsDeclaration : Phrase Declaration where
  | mk {k n : Token} {ts : List Token} {kind : Entity} {e : Option Expr}
      (entity : k.kind = .keyword (.entity kind)) (name : n.kind = .identifier)
      (initial : Maybe IsInitial ts e) : IsDeclaration (k :: n :: ts) ⟨kind, n.text, e⟩

inductive IsScope : Phrase Scope where
  | games {t : Token} (word : t.kind = .keyword .games) : IsScope [t] .games
  | seasons {t : Token} (word : t.kind = .keyword .seasons) : IsScope [t] .seasons
  | careers {t : Token} (word : t.kind = .keyword .careers) : IsScope [t] .careers
  | averageGames {a l g r : Token} (average : a.kind = .keyword (.aggregate .avg))
      (left : l.kind = .punctuation .leftParen) (games : g.kind = .keyword .games)
      (right : r.kind = .punctuation .rightParen) : IsScope [a, l, g, r] .averageGames
  | named {t : Token} (name : t.kind = .identifier) : IsScope [t] (.named t.text)

inductive IsMoreFilter : Phrase Expr where
  | mk {a : Token} {ts : List Token} {e : Expr} (word : a.kind = .keyword .andWord)
      (expression : IsExpression ts e) : IsMoreFilter (a :: ts) e

inductive IsFilters : Phrase (List Expr) where
  | absent : IsFilters [] []
  | present {w : Token} {ts us : List Token} {e : Expr} {es : List Expr}
      (word : w.kind = .keyword .whereWord) (first : IsExpression ts e)
      (more : Many IsMoreFilter us es) : IsFilters (w :: ts ++ us) (e :: es)

inductive IsMoreField : Phrase String where
  | mk {c f : Token} (comma : c.kind = .punctuation .comma) (field : f.kind = .identifier) :
      IsMoreField [c, f] f.text

/-- The switch is on unless it is written and turned off. -/
inductive IsBasic : Phrase Bool where
  | absent : IsBasic [] true
  | on {b o v : Token} (word : b.kind = .keyword .basic) (equals : o.kind = .comparison .eq)
      (value : v.kind = .keyword .trueWord) : IsBasic [b, o, v] true
  | off {b o v : Token} (word : b.kind = .keyword .basic) (equals : o.kind = .comparison .eq)
      (value : v.kind = .keyword .falseWord) : IsBasic [b, o, v] false

inductive IsRowOrder : Phrase RowOrder where
  | most {w f : Token} (word : w.kind = .keyword .most) (field : f.kind = .identifier) :
      IsRowOrder [w, f] ⟨f.text, false⟩
  | least {w f : Token} (word : w.kind = .keyword .least) (field : f.kind = .identifier) :
      IsRowOrder [w, f] ⟨f.text, true⟩

inductive IsClause : Phrase Clause where
  | selection {s f : Token} {ts us : List Token} {fields : List String} {basic : Bool}
      (word : s.kind = .keyword .select) (first : f.kind = .identifier)
      (more : Many IsMoreField ts fields) (switch : IsBasic us basic) :
      IsClause (s :: f :: ts ++ us) (.selection ⟨f.text :: fields, basic⟩)
  | orderBy {o b : Token} {ts : List Token} {order : RowOrder}
      (word : o.kind = .keyword .order) (second : b.kind = .keyword .byWord)
      (rows : IsRowOrder ts order) : IsClause (o :: b :: ts) (.order order)
  | order {ts : List Token} {order : RowOrder} (rows : IsRowOrder ts order) :
      IsClause ts (.order order)
  | limit {l n : Token} (word : l.kind = .keyword .limit) (number : n.kind = .number)
      (digits : IsDigits n.text.toList) (inRange : digitsValue n.text.toList ≤ greatestCount) :
      IsClause [l, n] (.limit (UInt64.ofNat (digitsValue n.text.toList)))

/-- Of the clauses of one sort the last one counts. -/
inductive IsQuery : Phrase Query where
  | mk {g : Token} {ts us vs : List Token} {scope : Scope} {filters : List Expr}
      {clauses : List Clause} (word : g.kind = .keyword .get) (about : IsScope ts scope)
      (conditions : IsFilters us filters) (more : Many IsClause vs clauses) :
      IsQuery (g :: ts ++ us ++ vs)
        ⟨scope, filters, (clauses.filterMap Clause.selection?).getLast?,
          (clauses.filterMap Clause.order?).getLast?, (clauses.filterMap Clause.limit?).getLast?⟩

inductive IsProgram : Phrase Program where
  | mk {ts us : List Token} {declarations : List Declaration} {query : Option Query}
      (first : Many IsDeclaration ts declarations) (last : Maybe IsQuery us query) :
      IsProgram (ts ++ us) ⟨declarations, query⟩

end Grammar
end BoxScore
