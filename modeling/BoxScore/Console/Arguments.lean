import BoxScore.Text.Numeral

/- The arguments of the command line. Options come in a long form, `--name value` or
   `--name=value`, and some in a short one, `-n value`, `-nvalue` or `-n=value`; behind a
   lone `--` every argument is a query. -/
namespace BoxScore.Console

inductive Format where
  | text
  | json
  deriving DecidableEq, Repr

def Format.ofText? (text : String) : Option Format :=
  match text with
  | "text" => some .text
  | "json" => some .json
  | _ => none

structure Arguments where
  query : Option String
  files : List String
  format : Option Format
  defaultLimit : Option UInt64
  deriving DecidableEq, Repr

def Arguments.start : Arguments := ⟨none, [], none, none⟩

inductive Setting where
  | file
  | format
  | defaultLimit
  deriving DecidableEq, Repr

inductive Argument where
  | query
  | separator
  | version
  | help
  | setting (setting : Setting) (value : Option String)
  | unknown
  deriving DecidableEq, Repr

def Argument.ofLong (name : String) (value : Option String) : Argument :=
  match name, value with
  | "version", none => .version
  | "help", none => .help
  | "file", value => .setting .file value
  | "format", value => .setting .format value
  | "default-limit", value => .setting .defaultLimit value
  | _, _ => .unknown

/-- A lone dash is an ordinary value. -/
def Argument.ofText (text : String) : Argument :=
  match text.toList with
  | ['-', '-'] => .separator
  | '-' :: '-' :: body =>
    let name := String.ofList (body.takeWhile (· ≠ '='))
    match body.dropWhile (· ≠ '=') with
    | [] => .ofLong name none
    | _ :: value => .ofLong name (some (String.ofList value))
  | ['-', 'f'] => .setting .file none
  | '-' :: 'f' :: '=' :: value => .setting .file (some (String.ofList value))
  | '-' :: 'f' :: value => .setting .file (some (String.ofList value))
  | '-' :: 'V' :: _ => .version
  | '-' :: 'h' :: _ => .help
  | '-' :: _ :: _ => .unknown
  | _ => .query

def Arguments.addQuery (a : Arguments) (text : String) : Option Arguments :=
  match a.query with
  | none => some { a with query := some text }
  | some _ => none

/-- Files add up; any other option may be given once. -/
def Arguments.set (a : Arguments) (setting : Setting) (value : String) : Option Arguments :=
  match setting with
  | .file => if value.isEmpty then none else some { a with files := a.files ++ [value] }
  | .format =>
    match a.format, Format.ofText? value with
    | none, some format => some { a with format := some format }
    | _, _ => none
  | .defaultLimit =>
    match a.defaultLimit, Text.readUInt64 value with
    | none, some count => some { a with defaultLimit := some count }
    | _, _ => none

inductive Request where
  | version
  | help
  | run (arguments : Arguments)
  deriving DecidableEq, Repr

/-- Reads the arguments from left to right; there is no request if one is refused. A
    question for the version or for help is answered as soon as it is met. -/
def Arguments.read (a : Arguments) (separated : Bool) : List String → Option Request
  | [] => if a.query.isSome && !a.files.isEmpty then none else some (.run a)
  | text :: rest =>
    match if separated then .query else Argument.ofText text with
    | .query => (a.addQuery text).bind fun a => a.read separated rest
    | .separator => a.read true rest
    | .version => some .version
    | .help => some .help
    | .setting setting (some value) => (a.set setting value).bind fun a => a.read separated rest
    | .setting setting none =>
      match rest with
      | [] => none
      | value :: rest =>
        if Argument.ofText value = .query then
          (a.set setting value).bind fun a => a.read separated rest
        else none
    | .unknown => none

def Request.ofArguments? (texts : List String) : Option Request := Arguments.start.read false texts

end BoxScore.Console
