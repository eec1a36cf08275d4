import BoxScore.Compiler
import BoxScore.Console.Arguments
import BoxScore.Json

/- What a run prints about one program. -/
namespace BoxScore

def Program.season? (p : Program) : Option Season := do
  let q ← p.query
  q.filters.findSome? fun
    | .compare left op right =>
      (Roster.seasonLiteral? left op right).bind fun value => Season.ofName? value.text
    | _ => none

namespace Console

structure Outcome where
  out : String
  err : String
  ok : Bool
  deriving DecidableEq, Repr

namespace Outcome

def silent : Outcome := ⟨"", "", true⟩

def say (text : String) : Outcome := ⟨text, "", true⟩

def fail (text : String) : Outcome := ⟨"", text, false⟩

def append (a b : Outcome) : Outcome := ⟨a.out ++ b.out, a.err ++ b.err, a.ok && b.ok⟩

instance : Append Outcome := ⟨append⟩

def inOrder (outcomes : List Outcome) : Outcome := outcomes.foldr (· ++ ·) silent

def exitCode (o : Outcome) : UInt32 := if o.ok then 0 else 1

end Outcome

def season? (source : String) : Option Season :=
  match Program.parse source with
  | .ok program => program.season?
  | .error _ => none

def seasonLine (source : String) : String :=
  match season? source with
  | some s => "  season: " ++ s.name ++ " (" ++ s.first.iso ++ " to " ++ s.last.iso ++ ")\n"
  | none => ""

/-- A name of several words without quotes is the usual reason for an unexpected token. -/
def quoteHint (source : String) : Fault → String
  | .unexpectedToken _ _ _ =>
    if source.toList.contains '=' && !source.toList.contains '"' then
      "hint: names must be in quotes, e.g. Player p = \"Kobe Bryant\"\n"
    else ""
  | _ => ""

def reportPlan (format : Format) (source : String) (plan : Plan) : String :=
  match format with
  | .text => plan.text ++ "\n" ++ seasonLine source
  | .json => plan.prettyJson ++ "\n"

def reportResult (format : Format) (source : String) : Except Fault Plan → Outcome
  | .ok plan => .say (reportPlan format source plan)
  | .error fault => .fail ("error: " ++ fault.message ++ "\n" ++ quoteHint source fault)

def report (settings : Settings) (format : Format) (source : String) : Outcome :=
  reportResult format source (compile settings source)

end Console
end BoxScore
