import BoxScore.Position
import BoxScore.Text.Uppercase
import BoxScore.Vocabulary

/- Tokens of the query language and the classes of words. -/
namespace BoxScore

inductive Keyword where
  | get
  | whereWord
  | select
  | order
  | byWord
  | most
  | least
  | between
  | inWord
  | andWord
  | orWord
  | notWord
  | trueWord
  | falseWord
  | limit
  | basic
  | aggregate (function : Aggregate)
  | games
  | seasons
  | careers
  | entity (kind : Entity)
  | gameDate
  | season
  deriving DecidableEq, Repr

namespace Keyword

def all : List Keyword :=
  [.get, .whereWord, .select, .order, .byWord, .most, .least, .between, .inWord, .andWord,
   .orWord, .notWord, .trueWord, .falseWord, .limit, .basic, .aggregate .avg, .aggregate .sum,
   .aggregate .count, .aggregate .min, .aggregate .max, .games, .seasons, .careers,
   .entity .player, .entity .team, .entity .opponent, .gameDate, .season]

def spelling : Keyword → String
  | .get => "get"
  | .whereWord => "where"
  | .select => "select"
  | .order => "order"
  | .byWord => "by"
  | .most => "most"
  | .least => "least"
  | .between => "between"
  | .inWord => "in"
  | .andWord => "and"
  | .orWord => "or"
  | .notWord => "not"
  | .trueWord => "true"
  | .falseWord => "false"
  | .limit => "limit"
  | .basic => "basic"
  | .aggregate f => f.spelling
  | .games => "games"
  | .seasons => "seasons"
  | .careers => "careers"
  | .entity kind => kind.spelling
  | .gameDate => "game_date"
  | .season => "season"

def ofSpelling? (text : String) : Option Keyword := all.find? (·.spelling == text)

end Keyword

inductive Punctuation where
  | comma
  | leftParen
  | rightParen
  | leftBracket
  | rightBracket
  deriving DecidableEq, Repr

namespace Punctuation

def all : List Punctuation := [.comma, .leftParen, .rightParen, .leftBracket, .rightBracket]

def symbol : Punctuation → String
  | .comma => ","
  | .leftParen => "("
  | .rightParen => ")"
  | .leftBracket => "["
  | .rightBracket => "]"

def ofSymbol? (text : String) : Option Punctuation := all.find? (·.symbol == text)

end Punctuation

namespace Token

inductive Kind where
  | keyword (word : Keyword)
  | comparison (op : Comparison)
  | punctuation (mark : Punctuation)
  | number
  | string
  | canonicalName
  | date
  | identifier
  | fieldAccess
  | newline
  | eof
  deriving DecidableEq, Repr

def isDateShape (cs : List Char) : Bool :=
  match cs with
  | [a, b, c, d, e, f, g, h, i, j] =>
    ([a, b, c, d, f, g, i, j].all Char.isDigit && e = '-' && h = '-') ||
      ([a, b, d, e, g, h, i, j].all Char.isDigit && c = '-' && f = '-')
  | _ => false

/-- The kind of a word. Reserved words come first, then dates; an underscore anywhere or
    a capital in front makes the name of a person or a team. -/
def Kind.ofWord (text : String) : Kind :=
  match Keyword.ofSpelling? text with
  | some word => .keyword word
  | none =>
    let cs := text.toList
    if isDateShape cs then .date
    else if cs.contains '_' || cs.head?.any Text.isUppercase then .canonicalName
    else .identifier

def Kind.entity? : Kind → Option Entity
  | .keyword (.entity kind) => some kind
  | _ => none

end Token

/-- The text of a string token is what stands between its quotes. -/
structure Token where
  kind : Token.Kind
  text : String
  position : Position
  deriving DecidableEq, Repr

def Token.shown (t : Token) : String :=
  match t.kind with
  | .eof => "end of input"
  | .newline => "newline"
  | _ => t.text

end BoxScore
