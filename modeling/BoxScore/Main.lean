import BoxScore.Console.Run

/- The command line program. -/
namespace BoxScore.Console

def fileFault : IO.Error → FileFault
  | .noFileOrDirectory .. => .missing
  | e => .other e.toString

def readFile (path : String) : IO FileText := do
  try
    return .ofBytes (← IO.FS.readBinFile path)
  catch e =>
    return .error (fileFault e)

def print (o : Outcome) : IO Unit := do
  IO.print o.out
  IO.eprint o.err
  (← IO.getStdout).flush

section Session

variable {σ : Type} (byte : σ → IO (Option (UInt8 × σ))) (emit : Outcome → IO Unit)
  (settings : Settings) (format : Format)

def readByte (read : Array UInt8 × σ) : IO ((Array UInt8 × σ) ⊕ (Array UInt8 × σ)) := do
  match ← byte read.2 with
  | none => return .inr read
  | some (b, s) =>
    if b = 10 then return .inr (read.1.push b, s)
    else return .inl (read.1.push b, s)

variable [Nonempty σ]

def nextLine (s : σ) : IO (Array UInt8 × σ) := repeatM (readByte byte) (#[], s)

/-- One turn of a session, which goes on with what is left of the input and with whether
    all went well so far, or ends with the latter. The bytes come from a source whose state
    is handed on, so that a session can be run over bytes that are there already. -/
def turn (state : σ × Bool) : IO ((σ × Bool) ⊕ Bool) := do
  emit (.say prompt)
  let (line, s) ← nextLine byte state.1
  if line.isEmpty then return .inr state.2
  match lineText line.toList with
  | none =>
    emit unreadableLine
    return .inr false
  | some text =>
    match answer? settings format text with
    | none => return .inr state.2
    | some outcome =>
      emit outcome
      return .inl (s, state.2 && outcome.ok)

def interact (s : σ) (ok : Bool) : IO Bool := repeatM (turn byte emit settings format) (s, ok)

def converse (s : σ) : IO Bool := do
  emit (.say greeting)
  interact byte emit settings format s true

end Session

def typedByte (input : IO.FS.Stream) (_ : Unit) : IO (Option (UInt8 × Unit)) := do
  return (← input.read 1).toList.head?.map (·, ())

def perform (a : Arguments) : IO UInt32 := do
  if a.query.isNone && a.files.isEmpty then
    let byte := typedByte (← IO.getStdin)
    return if ← converse byte print a.settings a.outputFormat () then 0 else 1
  else
    let texts ← a.files.mapM fun path => return (path, ← readFile path)
    let outcome := run (.run a) (fun path => (texts.lookup path).getD (.error .missing)) []
    print outcome
    return outcome.exitCode

end BoxScore.Console

open BoxScore.Console in
def main (arguments : List String) : IO UInt32 := do
  match Request.ofArguments? arguments with
  | none =>
    IO.eprint "error: the arguments were not understood\n\nFor more information, try '--help'.\n"
    return 2
  | some (.run a) => perform a
  | some request =>
    print (run request (fun _ => .error .missing) [])
    return 0
