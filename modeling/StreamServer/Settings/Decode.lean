import StreamServer.Settings
import StreamServer.Text.Quoted

/-!
# Settings from a document

A section is decoded field by field from its default.  A table sets the fields it names, in the order
of its entries; a list sets the fields in the order in which they are declared.  What names no field
is passed over, what is not set keeps its default, and the first value that does not fit ends the
decoding.

The two formats differ in few points: whether a list may hold more than the fields, what stands for a
variant, and how a stray value is described.
-/

namespace StreamServer

/-- The format that a document was written in. -/
inductive Dialect
  | toml
  | json
  deriving Repr, DecidableEq

/-- What a value had to be. -/
inductive Expected
  | count
  | flag
  | string
  | group (name : String)
  | stringOrTable
  | unit
  | singleEntry
  deriving Repr, DecidableEq

namespace Expected

/-- How a report names what a value had to be. -/
def text : Expected → String
  | count => "usize"
  | flag => "a boolean"
  | string => "a string"
  | group name => "struct " ++ name
  | stringOrTable => "string or map"
  | unit => "unit"
  | singleEntry => "map with a single key"

end Expected

/-- Why a document does not decode. -/
inductive DecodeError
  | wrongType (found : Value) (expected : Expected)
  | wrongValue (found : Value) (expected : Expected)
  | unknownVariant (name : String)
  | tooManyItems (count : Nat)
  | notAVariant

namespace DecodeError

/-- How a report names a value that was found. -/
def describe (d : Dialect) : Value → String
  | .null => "null"
  | .bool b => "boolean `" ++ toString b ++ "`"
  | .integer i => "integer `" ++ toString i ++ "`"
  | .real x =>
      let style :=
        match d with
        | .toml => Binary64.Style.full
        | .json => Binary64.Style.compact
      "floating point `" ++ x.text style ++ "`"
  | .string s => "string " ++ quote s
  | .moment => "map"
  | .list _ => "sequence"
  | .table _ => "map"

/-- The report of an error; a value that can be no variant is reported by the reader of the format,
in words of its own. -/
def message? (d : Dialect) : DecodeError → Option String
  | wrongType found expected =>
      some ("invalid type: " ++ describe d found ++ ", expected " ++ expected.text)
  | wrongValue found expected =>
      some ("invalid value: " ++ describe d found ++ ", expected " ++ expected.text)
  | unknownVariant name =>
      some ("unknown variant `" ++ name ++ "`, expected `pretty` or `json`")
  | tooManyItems count =>
      some ("invalid length " ++ toString count ++ ", expected fewer elements in array")
  | notAVariant => none

end DecodeError

/-- Takes a setting out of a value. -/
abbrev Decoder (α : Type) := Dialect → Value → Except DecodeError α

namespace Decoder

/-- A count of sixty-four bits. -/
def count : Decoder UInt64 := fun _ v =>
  match v with
  | .integer i =>
      if 0 ≤ i ∧ i.toNat < UInt64.size then .ok (UInt64.ofNat i.toNat)
      else .error (.wrongValue v .count)
  | _ => .error (.wrongType v .count)

/-- A truth value. -/
def flag : Decoder Bool := fun _ v =>
  match v with
  | .bool b => .ok b
  | _ => .error (.wrongType v .flag)

/-- A string. -/
def string : Decoder String := fun _ v =>
  match v with
  | .string s => .ok s
  | _ => .error (.wrongType v .string)

/-- The variant with a name. -/
def variant (name : String) : Except DecodeError LogFormat :=
  match LogFormat.ofWord? name with
  | some f => .ok f
  | none => .error (.unknownVariant name)

/-- What may stand beside the name of a variant when it is written as the key of a table. -/
def emptyContent (d : Dialect) (v : Value) : Except DecodeError Unit :=
  match d, v with
  | .json, .null => .ok ()
  | .json, _ => .error (.wrongType v .unit)
  | .toml, .list [] => .ok ()
  | .toml, .table [] => .ok ()
  | .toml, _ => .error .notAVariant

/-- A log format: its name, or a table with its name as the only key. -/
def logFormat : Decoder LogFormat := fun d v =>
  match v with
  | .string s => variant s
  | .table [(name, content)] => do
      let f ← variant name
      emptyContent d content
      .ok f
  | .table entries =>
      match d with
      | .json => .error (.wrongValue (.table entries) .singleEntry)
      | .toml => .error .notAVariant
  | _ =>
      match d with
      | .json => .error (.wrongType v .stringOrTable)
      | .toml => .error .notAVariant

end Decoder

/-- A section: its name, its default, and how each of its fields is set, in declaration order. -/
structure Schema (α : Type) where
  name : String
  initial : α
  fields : List (String × (Dialect → Value → α → Except DecodeError α))

namespace Schema

variable {α : Type}

/-- A field that is decoded on its own and then put into the section. -/
def field {β : Type} (name : String) (decoder : Decoder β) (put : β → α → α) :
    String × (Dialect → Value → α → Except DecodeError α) :=
  (name, fun d v a => do
    let b ← decoder d v
    .ok (put b a))

/-- Sets the field that an entry names, if there is one. -/
def setNamed (s : Schema α) (d : Dialect) (a : α) (entry : String × Value) :
    Except DecodeError α :=
  match s.fields.find? fun f => f.1 == entry.1 with
  | some f => f.2 d entry.2 a
  | none => .ok a

/-- The section that a table describes. -/
def ofEntries (s : Schema α) (d : Dialect) (entries : List (String × Value)) :
    Except DecodeError α :=
  entries.foldlM (s.setNamed d) s.initial

/-- The section that a list describes. -/
def ofItems (s : Schema α) (d : Dialect) (items : List Value) : Except DecodeError α := do
  let a ← (s.fields.zip items).foldlM (fun a p => p.1.2 d p.2 a) s.initial
  if d = .json ∧ s.fields.length < items.length then .error (.tooManyItems items.length)
  else .ok a

/-- The section that a value describes.  A date or time is a table without known entries. -/
def decode (s : Schema α) : Decoder α := fun d v =>
  match v with
  | .table entries => s.ofEntries d entries
  | .list items => s.ofItems d items
  | .moment => .ok s.initial
  | _ => .error (.wrongType v (.group s.name))

end Schema

namespace Settings

/-- How connections are described. -/
def connectionSchema : Schema ConnectionSettings where
  name := "ConnectionConfig"
  initial := {}
  fields :=
    [ Schema.field "read_size" Decoder.count fun n s => { s with readSize := n },
      Schema.field "preview_len" Decoder.count fun n s => { s with previewLength := n } ]

/-- How the listener is described. -/
def listenerSchema : Schema ListenerSettings where
  name := "ListenerConfig"
  initial := {}
  fields :=
    [ Schema.field "bind_address" Decoder.string fun a s => { s with bindAddress := a },
      Schema.field "max_connections" Decoder.count fun n s => { s with maxConnections := n } ]

/-- How reporting is described. -/
def reportSchema : Schema ReportSettings where
  name := "ObservabilityConfig"
  initial := {}
  fields :=
    [ Schema.field "log_level" Decoder.string fun l s => { s with logLevel := l },
      Schema.field "log_format" Decoder.logFormat fun f s => { s with logFormat := f },
      Schema.field "metrics_enabled" Decoder.flag fun b s => { s with metricsEnabled := b },
      Schema.field "metrics_address" Decoder.string fun a s => { s with metricsAddress := a } ]

/-- How all settings are described. -/
def schema : Schema Settings where
  name := "AppConfig"
  initial := {}
  fields :=
    [ Schema.field "connection" connectionSchema.decode fun c s => { s with connection := c },
      Schema.field "listener" listenerSchema.decode fun l s => { s with listener := l },
      Schema.field "observability" reportSchema.decode fun r s => { s with report := r } ]

/-- The settings that a document describes. -/
def decode (d : Dialect) (v : Value) : Except DecodeError Settings :=
  schema.decode d v

end Settings

end StreamServer
