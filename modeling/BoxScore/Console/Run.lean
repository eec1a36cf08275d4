import BoxScore.Console.Report
import BoxScore.Text.WhiteSpace

/- A whole run of the command line, as a function of its arguments, of the files it can
   read and of the lines that are typed. -/
namespace BoxScore.Console

inductive FileFault where
  | missing
  | notDirectory
  | directory
  | notText
  | other (reason : String)
  deriving DecidableEq, Repr

def notTextMessage : String := "stream did not contain valid UTF-8"

def FileFault.message : FileFault → String
  | .missing => "No such file or directory (os error 2)"
  | .notDirectory => "Not a directory (os error 20)"
  | .directory => "Is a directory (os error 21)"
  | .notText => notTextMessage
  | .other reason => reason

abbrev FileText := Except FileFault String

def FileText.ofBytes (bytes : ByteArray) : FileText :=
  match String.fromUTF8? bytes with
  | some text => .ok text
  | none => .error .notText

/-- Files that cannot be read are named before any of the others is reported. -/
def unreadable (files : List (String × FileText)) : Outcome :=
  .inOrder (files.map fun (path, text) => match text with
    | .ok _ => .silent
    | .error fault => .fail (path ++ ": " ++ fault.message ++ "\n"))

def readable (files : List (String × FileText)) : List (String × String) :=
  files.filterMap fun (path, text) => match text with
    | .ok source => some (path, source)
    | .error _ => none

def reportFiles (settings : Settings) (format : Format) (files : List (String × FileText)) :
    Outcome :=
  let sources := readable files
  let results := compileBatch settings (sources.map Prod.snd)
  unreadable files ++ .inOrder ((sources.zip results).map fun ((path, source), result) =>
    .say ("== " ++ path ++ "\n") ++ reportResult format source result)

def greeting : String := "HoopsQL compiler. Type `help` for examples, `exit` to quit.\n"

def prompt : String := "hoopsql> "

def examplesText : String :=
  "Examples:\n" ++
  "  Player p = \"Kobe Bryant\" get games where p.points >= 40\n" ++
  "  Player p = \"Stephen Curry\" get games where p.assists >= 10 order by most points\n" ++
  "  Player p = \"Kobe Bryant\" Player q = p.opponent get games where p.points >= 30 " ++
  "and q.points >= 30\n" ++
  "  Player p = \"Stephen Curry\" get avg(games) where season = \"2015-16\"\n" ++
  "Type `exit` to quit.\n"

/-- The answer to one typed line; none ends the session. -/
def answer? (settings : Settings) (format : Format) (line : String) : Option Outcome :=
  match Text.trim line with
  | "" => some .silent
  | "exit" | "quit" => none
  | "help" => some (.say examplesText)
  | source => some (report settings format source)

def unreadableLine : Outcome := .fail ("error reading input: " ++ notTextMessage ++ "\n")

def spoken (settings : Settings) (format : Format) : List (Option String) → List Outcome
  | [] => [.say prompt]
  | none :: _ => [.say prompt, unreadableLine]
  | some line :: lines =>
    .say prompt :: match answer? settings format line with
      | none => []
      | some outcome => outcome :: spoken settings format lines

def answers (settings : Settings) (format : Format) (lines : List (Option String)) : Outcome :=
  .inOrder (spoken settings format lines)

def session (settings : Settings) (format : Format) (lines : List (Option String)) : Outcome :=
  .say greeting ++ answers settings format lines

def splitLines : List UInt8 → List (List UInt8)
  | [] => []
  | b :: bs =>
    if b = 10 then [b] :: splitLines bs
    else match splitLines bs with
      | [] => [[b]]
      | line :: lines => (b :: line) :: lines

def lineText (line : List UInt8) : Option String := String.fromUTF8? ⟨line.toArray⟩

def versionText : String := "hoopsql 0.0.1\n"

def helpText : String :=
  "Compile HoopsQL basketball queries to parameterized SQL\n\n" ++
  "Usage: hoopsql [OPTIONS] [QUERY]\n\n" ++
  "Arguments:\n" ++
  "  [QUERY]  Query to compile\n\n" ++
  "Options:\n" ++
  "  -f, --file <FILE>        Query files to compile (repeatable)\n" ++
  "      --format <FORMAT>    Output format [default: text] [possible values: text, json]\n" ++
  "      --default-limit <N>  Row cap for `games` queries without a `limit` clause\n" ++
  "  -h, --help               Print help\n" ++
  "  -V, --version            Print version\n"

def Arguments.settings (a : Arguments) : Settings :=
  { Settings.standard with defaultLimit := a.defaultLimit }

def Arguments.outputFormat (a : Arguments) : Format := a.format.getD .text

def run (request : Request) (file : String → FileText) (input : List UInt8) : Outcome :=
  match request with
  | .version => .say versionText
  | .help => .say helpText
  | .run a =>
    match a.query with
    | some source => report a.settings a.outputFormat source
    | none =>
      if a.files.isEmpty then
        session a.settings a.outputFormat ((splitLines input).map lineText)
      else reportFiles a.settings a.outputFormat (a.files.map fun path => (path, file path))

end BoxScore.Console
