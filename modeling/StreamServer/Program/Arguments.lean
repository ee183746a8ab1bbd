import StreamServer.Settings.Source

/-!
# Arguments of the program

The program takes three options with a value and one that asks for help; all of them are in a table,
from which the help is written.  A value follows its option as the next argument or is attached to
it, to a long name behind an equals sign and to a short name with or without one.  Arguments are
read in order, and the first that asks for help or is misused ends the reading.
-/

namespace StreamServer

/-- An option with a value. -/
inductive ValueOption
  | config
  | bind
  | logFormat
  deriving Repr, DecidableEq

/-- What the arguments ask for: a run with the settings of a file and some replaced, or help, in
brief or in full, or nothing that the program can do. -/
inductive ProgramCall
  | run (configPath : Option String) (overrides : Overrides)
  | help (full : Bool)
  | misuse
  deriving Repr, DecidableEq

/-! ## Help -/

/-- How an option is explained: its flags, its purpose, the values it can have and what they mean,
and its purpose in the full help if that is another. -/
structure OptionHelp where
  flags : String
  purpose : String
  values : List (String × String) := []
  fullPurpose : Option String := none

namespace OptionHelp

/-- The options of the program. -/
def table : List OptionHelp :=
  [ { flags := "-c, --config <CONFIG>", purpose := "Path to a TOML configuration file" },
    { flags := "-b, --bind <BIND>", purpose := "Override `listener.bind_address`" },
    { flags := "    --log-format <LOG_FORMAT>"
      purpose := "Override `observability.log_format`"
      values :=
        [ (LogFormat.pretty.word, "Human-readable output"),
          (LogFormat.json.word, "One JSON object per line") ] },
    { flags := "-h, --help"
      purpose := "Print help (see more with '--help')"
      fullPurpose := some "Print help (see a summary with '-h')" } ]

/-- A text with blanks behind it up to a width. -/
def padded (width : Nat) (s : String) : String :=
  s ++ String.ofList (List.replicate (width - s.length) ' ')

/-- The greatest length of some texts. -/
def widest (texts : List String) : Nat :=
  (texts.map String.length).foldl max 0

/-- An option on one line. -/
def brief (width : Nat) (o : OptionHelp) : String :=
  let values :=
    if o.values = [] then ""
    else " [possible values: " ++ ", ".intercalate (o.values.map Prod.fst) ++ "]"
  "  " ++ padded (width + 2) o.flags ++ o.purpose ++ values ++ "\n"

/-- An option with a paragraph below it, and with a line for each of its values. -/
def full (o : OptionHelp) : String :=
  let width := widest (o.values.map Prod.fst) + 2
  let values :=
    if o.values = [] then ""
    else
      "\n          Possible values:\n"
        ++ String.join (o.values.map fun v =>
            "          - " ++ padded width (v.1 ++ ":") ++ v.2 ++ "\n")
  "  " ++ o.flags ++ "\n          " ++ o.fullPurpose.getD o.purpose ++ "\n" ++ values

end OptionHelp

/-- The help of the program. -/
def helpText (full : Bool) : String :=
  let head :=
    "Echo server built on per-connection transport primitives\n\n"
      ++ "Usage: socket-conn [OPTIONS]\n\nOptions:\n"
  let options :=
    if full then "\n".intercalate (OptionHelp.table.map OptionHelp.full)
    else
      let width := OptionHelp.widest (OptionHelp.table.map OptionHelp.flags)
      String.join (OptionHelp.table.map (OptionHelp.brief width))
  head ++ options

/-! ## Reading -/

/-- The options read so far. -/
structure OptionsRead where
  configPath : Option String := none
  overrides : Overrides := {}
  deriving Repr, DecidableEq

namespace OptionsRead

/-- Puts in the value of an option.  No option is given twice, a path is not empty, and a format has
a name. -/
def put? (o : OptionsRead) (option : ValueOption) (value : String) : Option OptionsRead :=
  match option with
  | .config =>
      if o.configPath.isSome ∨ value = "" then none
      else some { o with configPath := some value }
  | .bind =>
      if o.overrides.bindAddress.isSome then none
      else some { o with overrides := { o.overrides with bindAddress := some value } }
  | .logFormat =>
      match LogFormat.ofWord? value with
      | none => none
      | some format =>
          if o.overrides.logFormat.isSome then none
          else some { o with overrides := { o.overrides with logFormat := some format } }

end OptionsRead

/-- What an argument begins: an option whose value is attached or still to come, or help. -/
inductive Argument
  | valued (option : ValueOption) (attached : Option String)
  | help (full : Bool)
  | unknown
  deriving Repr, DecidableEq

namespace Argument

/-- The long names of the options. -/
def longOptions : List (String × ValueOption) :=
  [("config", .config), ("bind", .bind), ("log-format", .logFormat)]

/-- An argument with a long name. -/
def ofLong (cs : List Char) : Argument :=
  let (name, attached) :=
    match cut? '=' cs with
    | some (name, value) => (name, some (String.ofList value))
    | none => (cs, none)
  match longOptions.lookup (String.ofList name) with
  | some option => .valued option attached
  | none => if cs = "help".toList then .help true else .unknown

/-- A value attached to a short name, an equals sign before it not counting. -/
def attachedShort : List Char → Option String
  | [] => none
  | '=' :: value => some (String.ofList value)
  | value => some (String.ofList value)

/-- What an argument begins. -/
def ofText (s : String) : Argument :=
  match s.toList with
  | '-' :: '-' :: cs => ofLong cs
  | '-' :: 'c' :: cs => .valued .config (attachedShort cs)
  | '-' :: 'b' :: cs => .valued .bind (attachedShort cs)
  | '-' :: 'h' :: _ => .help false
  | _ => .unknown

/-- Whether an argument can be the value of the option before it. -/
def isValue (s : String) : Bool :=
  match s.toList with
  | '-' :: _ :: _ => false
  | _ => true

end Argument

namespace ProgramCall

/-- What the rest of the arguments asks for, after some options. -/
def readFrom (o : OptionsRead) : List String → ProgramCall
  | [] => .run o.configPath o.overrides
  | s :: rest =>
      match Argument.ofText s, rest with
      | .help full, _ => .help full
      | .unknown, _ => .misuse
      | .valued option (some value), rest =>
          match o.put? option value with
          | some o => readFrom o rest
          | none => .misuse
      | .valued _ none, [] => .misuse
      | .valued option none, value :: rest =>
          if Argument.isValue value then
            match o.put? option value with
            | some o => readFrom o rest
            | none => .misuse
          else .misuse

/-- What the arguments ask for. -/
def ofArguments (arguments : List String) : ProgramCall :=
  readFrom {} arguments

end ProgramCall

end StreamServer
