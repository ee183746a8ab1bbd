import StreamServer.Log
import StreamServer.Text.Digits
import StreamServer.Text.Pieces

/-!
# Filters of log records

A filter is a list of directives with commas between them.  A directive says up to which level
records are shown, either of all sources or of those whose path begins with a target.  It may also
name a span or a field with a value, in square brackets; records outside of spans are never shown by
such a directive.

Of the directives that concern a record the most specific one decides: the one with the longest
target, and of two with the same target the one that names a field.
-/

namespace StreamServer

/-- Up to which level records are shown; without a level, none are. -/
abbrev LogLimit := Option LogLevel

namespace LogLimit

/-- Whether a level is within a limit. -/
def admits (limit : LogLimit) (level : LogLevel) : Bool :=
  match limit with
  | some most => level.rank ≤ most.rank
  | none => false

/-- The limits with their words, the narrowest first. -/
def words : List (String × LogLimit) :=
  [ ("off", none), ("error", some .error), ("warn", some .warn), ("info", some .info),
    ("debug", some .debug), ("trace", some .trace) ]

/-- The limit that a number or a word gives, in either case. -/
def ofChars? (cs : List Char) : Option LogLimit :=
  let digits :=
    match cs with
    | '+' :: rest => rest
    | cs => cs
  match Digits.read? 10 digits with
  | some n => (words[n]?).map Prod.snd
  | none => words.lookup (String.ofList (cs.map Char.toLower))

end LogLimit

/-- Whether a character is blank. -/
def isBlank (c : Char) : Bool :=
  let n := c.toNat
  (0x09 ≤ n && n ≤ 0x0D) || n == 0x20 || n == 0x85 || n == 0xA0 || n == 0x1680
    || (0x2000 ≤ n && n ≤ 0x200A) || n == 0x2028 || n == 0x2029 || n == 0x202F || n == 0x205F
    || n == 0x3000

/-- A list without the blanks around it. -/
def trimmed (cs : List Char) : List Char :=
  ((cs.dropWhile isBlank).reverse.dropWhile isBlank).reverse

/-- A field that a directive names, and whether with a value. -/
structure FieldPattern where
  name : String
  hasValue : Bool
  deriving Repr, DecidableEq

/-- A directive: up to which level, and of which records. -/
structure LogDirective where
  limit : LogLimit := some .trace
  target : Option (List Char) := none
  span : Option (List Char) := none
  field : Option FieldPattern := none
  deriving Repr, DecidableEq

/-- Why a text is no directive. -/
inductive DirectiveError
  | malformed
  | unknownLevel
  deriving Repr, DecidableEq

namespace DirectiveError

/-- What is shown to a reader. -/
def message : DirectiveError → String
  | malformed => "invalid filter directive"
  | unknownLevel =>
      "error parsing level filter: expected one of \"off\", \"error\", \"warn\", \"info\", "
        ++ "\"debug\", \"trace\", or a number 0-5"

end DirectiveError

namespace LogDirective

/-! ## Reading -/

/-- Whether a target may begin with a character.  Beyond ASCII every character may begin a name. -/
def beginsTarget (c : Char) : Bool :=
  c.isAlphanum || c == '-' || c == ':' || c == '_' || 0x80 ≤ c.toNat

/-- A directive with the level that stands behind its equals sign.  Without one, everything is shown. -/
def withLevel (d : LogDirective) (level : List Char) : Except DirectiveError LogDirective :=
  if level = [] then .ok { d with limit := some .trace }
  else
    match LogLimit.ofChars? level with
    | some limit => .ok { d with limit }
    | none => .error .unknownLevel

/-- A directive after its brackets, where only a level may follow. -/
def afterBrackets (d : LogDirective) : List Char → Except DirectiveError LogDirective
  | [] => .ok d
  | '=' :: level => d.withLevel level
  | _ => .error .malformed

/-- The field that a text between braces names. -/
def fieldOf (cs : List Char) : FieldPattern :=
  match cut? '=' cs with
  | some (name, _) => ⟨String.ofList name, true⟩
  | none => ⟨String.ofList cs, false⟩

/-- A directive from the inside of its brackets on: a span, or a span and a field in braces. -/
def inBrackets (d : LogDirective) (cs : List Char) : Except DirectiveError LogDirective :=
  let name := cs.takeWhile fun c => c != ']' && c != '\x7b'
  match cs.dropWhile fun c => c != ']' && c != '\x7b' with
  | ']' :: rest => afterBrackets { d with span := some name } rest
  | _ :: rest =>
      let d := if name = [] then d else { d with span := some name }
      match cut? '\x7d' rest with
      | some (field, ']' :: rest) =>
          if field = [] then .error .malformed
          else afterBrackets { d with field := some (fieldOf field) } rest
      | _ => .error .malformed
  | [] => .error .malformed

/-- A word alone is a level, or else a target of which everything is shown. -/
def ofWord (cs : List Char) : LogDirective :=
  match LogLimit.ofChars? cs with
  | some limit => { limit }
  | none => { target := some cs }

/-- Reads a directive that has no blanks around it. -/
def ofTrimmed (cs : List Char) : Except DirectiveError LogDirective :=
  match cs with
  | [] => .error .malformed
  | '[' :: rest => inBrackets {} rest
  | c :: _ =>
      if beginsTarget c then
        let target := cs.takeWhile fun c => c != '=' && c != '['
        match cs.dropWhile fun c => c != '=' && c != '[' with
        | [] => .ok (ofWord cs)
        | '=' :: level => withLevel { target := some target } level
        | _ :: rest => inBrackets { target := some target } rest
      else .error .malformed

/-- Reads a directive.  Blanks around a word belong to it, so that it names a target; around anything
that ends in a level they make the level unreadable. -/
def parse (cs : List Char) : Except DirectiveError LogDirective :=
  let inner := trimmed cs
  if inner = cs then ofTrimmed cs
  else
    match ofTrimmed inner with
    | .error e => .error e
    | .ok d =>
        if '=' ∈ inner then .error .unknownLevel
        else if d.span = none ∧ d.field = none then .ok { target := some cs }
        else .ok d

/-! ## Deciding -/

/-- Whether a directive decides about records that are in no span. -/
def isPlain (d : LogDirective) : Bool :=
  d.span.isNone && !(d.field.any FieldPattern.hasValue)

/-- Whether a record has a field that a directive names. -/
def fieldFits (d : LogDirective) (r : LogRecord) : Bool :=
  match d.field with
  | none => true
  | some f => f.name == "message" || r.fields.any fun x => x.1 == f.name

/-- Whether a directive concerns a record. -/
def concerns (d : LogDirective) (r : LogRecord) : Bool :=
  d.isPlain && (d.target.all fun t => t.isPrefixOf r.source.path.toList) && d.fieldFits r

/-- How specific a directive is: the length of its target, then whether it names a field. -/
def specificity (d : LogDirective) : Nat :=
  2 * (match d.target with
    | none => 0
    | some t => t.length + 1) + (if d.field.isSome then 1 else 0)

end LogDirective

/-- A filter: its directives, in order. -/
structure LogFilter where
  directives : List LogDirective
  deriving Repr, DecidableEq

namespace LogFilter

/-- The directive that decides about a record: of the most specific ones the last. -/
def decisive? (f : LogFilter) (r : LogRecord) : Option LogDirective :=
  (f.directives.filter fun d => d.concerns r).foldl
    (fun best d =>
      match best with
      | none => some d
      | some b => if b.specificity ≤ d.specificity then some d else some b)
    none

/-- Whether a record is shown. -/
def shows (f : LogFilter) (r : LogRecord) : Bool :=
  (f.decisive? r).any fun d => d.limit.admits r.level

/-- A filter of directives; without any, only errors are shown. -/
def ofDirectives (ds : List LogDirective) : LogFilter :=
  ⟨if ds = [] then [{ limit := some .error }] else ds⟩

/-- The texts of the directives, between commas; empty ones do not count. -/
def directiveTexts (text : String) : List (List Char) :=
  (pieces ',' text.toList).filter (· ≠ [])

/-- The filter that a text describes, if all of it can be read. -/
def parse? (text : String) : Option LogFilter :=
  match (directiveTexts text).mapM LogDirective.parse with
  | .ok ds => some (ofDirectives ds)
  | .error _ => none

/-- The filter that the readable directives of a text describe. -/
def ofReadable (text : String) : LogFilter :=
  ofDirectives ((directiveTexts text).filterMap fun cs => (LogDirective.parse cs).toOption)

/-- What is said about the directives of a text that cannot be read, a line for each. -/
def complaints (text : String) : String :=
  String.join ((directiveTexts text).filterMap fun cs =>
    match LogDirective.parse cs with
    | .ok _ => none
    | .error e =>
        some ("ignoring \x60" ++ String.ofList cs ++ "\x60: " ++ e.message ++ "\n"))

/-- The filter of a program and what is complained about: the one from its environment if that can be
read, or else the one from its settings as far as it can be read. -/
def choose (environment : Option String) (level : String) : LogFilter × String :=
  match environment.bind parse? with
  | some f => (f, "")
  | none => (ofReadable level, complaints level)

end LogFilter

end StreamServer
