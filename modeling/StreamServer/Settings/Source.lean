import StreamServer.Document.Toml
import StreamServer.FileTree
import StreamServer.Settings.Decode
import StreamServer.Settings.Validation
import StreamServer.Text.Utf8

/-!
# Where settings come from

Settings are read from a text, from a file, or from a file with some settings replaced afterwards.
Whatever comes out has been validated; the settings of a file are validated before any of them is
replaced.
-/

namespace StreamServer

/-- Why there are no settings. -/
inductive SettingsError
  | unreadable (fault : Fault)
  | malformed
  | undecodable (error : DecodeError)
  | invalid (violations : List Violation)

namespace SettingsError

/-- What went wrong, as far as it is described here: of a malformed text only the fact is told. -/
def message? : SettingsError → Option String
  | unreadable f => some ("IO error: " ++ f.text)
  | malformed => none
  | undecodable e => e.message? .toml
  | invalid vs => some ("Validation failed: " ++ ", ".intercalate (vs.map Violation.text))

/-- The form of an error in which every part is named, for the report of a program that gives up. -/
def details : SettingsError → String
  | unreadable f => "Io(" ++ f.details ++ ")"
  | malformed => "Parse"
  | undecodable _ => "Parse"
  | invalid vs => "Validation([" ++ ", ".intercalate (vs.map Violation.details) ++ "])"

end SettingsError

/-- Settings that replace those of a file. -/
structure Overrides where
  bindAddress : Option String := none
  logFormat : Option LogFormat := none
  deriving Repr, DecidableEq

namespace Settings

/-- The settings themselves, if nothing is wrong with them. -/
def validated (s : Settings) : Except SettingsError Settings :=
  match s.validate with
  | .ok s => .ok s
  | .error vs => .error (.invalid vs)

/-- The settings that a text describes, before validation. -/
def ofText (text : String) : Except SettingsError Settings :=
  match Toml.parse? text with
  | none => .error .malformed
  | some v =>
      match decode .toml v with
      | .ok s => .ok s
      | .error e => .error (.undecodable e)

/-- The valid settings that a text describes. -/
def parse (text : String) : Except SettingsError Settings := do
  let s ← ofText text
  s.validated

/-- The valid settings that the content of a file describes, if it could be read. -/
def ofContent : Except Fault Bytes → Except SettingsError Settings
  | .error f => .error (.unreadable f)
  | .ok content =>
      match Utf8.decode? content with
      | some cs => parse (String.ofList cs)
      | none =>
          .error (.unreadable (.remark .invalidData "stream did not contain valid UTF-8"))

/-- The valid settings that a file describes. -/
def load (root : FileTree) (current : List Bytes) (path : Bytes) :
    Except SettingsError Settings :=
  ofContent (root.read current path)

/-- The settings with some of them replaced. -/
def override (s : Settings) (o : Overrides) : Settings :=
  { s with
    listener := { s.listener with bindAddress := o.bindAddress.getD s.listener.bindAddress }
    report := { s.report with logFormat := o.logFormat.getD s.report.logFormat } }

/-- The valid settings of a program: those of its file, or the defaults, with some replaced. -/
def forProgram (fromFile : Option (Except SettingsError Settings)) (o : Overrides) :
    Except SettingsError Settings := do
  let s ← fromFile.getD (.ok {})
  (s.override o).validated

end Settings

end StreamServer
