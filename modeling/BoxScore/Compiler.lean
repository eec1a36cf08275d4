import BoxScore.Plan
import BoxScore.Query.Reading

/- From the text of a program to its plan. -/
namespace BoxScore

structure Settings where
  /-- Rows of a query about games that sets no limit itself. -/
  defaultLimit : Option UInt64
  /-- The longest source that is read, in bytes. -/
  maxSourceBytes : Nat
  deriving DecidableEq, Repr

def Settings.standard : Settings := ⟨none, 65536⟩

/-- Reads, enters the variables and plans; the first fault ends it. -/
def compile (settings : Settings) (source : String) : Except Fault Plan :=
  if settings.maxSourceBytes < source.utf8ByteSize then
    .error (.sourceTooLarge source.utf8ByteSize settings.maxSourceBytes)
  else do
    let program ← Program.parse source
    let roster ← program.roster
    Plan.ofQuery? roster settings.defaultLimit program.query

def compileBatch (settings : Settings) (sources : List String) : List (Except Fault Plan) :=
  sources.map (compile settings)

end BoxScore
