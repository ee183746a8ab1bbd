import Mathlib
import StreamServer.Proofs.Conditions
import StreamServer.Proofs.JsonText
import StreamServer.Proofs.SettingsFields
import StreamServer.Settings.Source

/-!
# Settings that are written and read again

Settings can be written as an object of JSON and read back.  What is not set keeps
its default without a word, so a key that is written in one way and looked for in
another would go unnoticed; that a field comes back is therefore shown for each of
them, through its own key.

The entries of an object have no order of their own.  An entry that sets its field
whatever else is set can change places with one that sets another field, so the
settings come back from the entries in any order.
-/

namespace StreamServer

/-! ## Single values -/

namespace Decoder

/-- A count is read back, also where it would be negative as a signed number. -/
theorem count_ofNat
    (d : Dialect) (n : UInt64) :
    count d (.ofNat n.toNat) = .ok n :=
  count_eq_ok_iff.mpr rfl

theorem logFormat_word
    (d : Dialect) (f : LogFormat) :
    logFormat d (.string f.word) = .ok f :=
  logFormat_eq_ok_iff.mpr (Or.inl rfl)

end Decoder

/-! ## Tables in any order -/

namespace Schema

variable {α : Type} {s : Schema α} {d : Dialect}

/-- An entry of a table, and what it makes of a section. -/
structure Put (α : Type) where
  entry : String × Value
  set : α → α

/-- An entry that puts what its value means into a section. -/
def Put.of
    {β : Type} (name : String) (v : Value)
    (put : β → α → α) (b : β) : Put α :=
  ⟨(name, v), put b⟩

/-- An entry sets what it is said to set, whatever is set already. -/
def Sets (s : Schema α) (d : Dialect) (p : Put α) : Prop :=
  ∀ a, s.setNamed d a p.entry = .ok (p.set a)

/-- It does not matter which of two entries comes first. -/
def Apart (p q : Put α) : Prop :=
  ∀ a, q.set (p.set a) = p.set (q.set a)

theorem Apart.symm
    {p q : Put α}
    (apart : Apart p q) :
    Apart q p := by
  intro a
  exact (apart a).symm

/-- An entry with the name of a field and a value that fits sets the field. -/
theorem sets_field
    {β : Type} {decoder : Decoder β} {put : β → α → α}
    {name : String} {v : Value} {b : β}
    (named :
      s.fields.find? (fun f => f.1 == name) = some (field name decoder put))
    (fits : decoder d v = .ok b) :
    s.Sets d (.of name v put b) := by
  intro a
  simp only [Put.of, setNamed, named, field, fits]
  rfl

/-- A table is decoded by setting what its entries set. -/
theorem ofEntries_of_sets
    {puts : List (Put α)}
    (sets : ∀ p ∈ puts, s.Sets d p) :
    s.ofEntries d (puts.map Put.entry) =
      .ok (puts.foldl (fun a p => p.set a) s.initial) := by
  have hfold : ∀ a,
      (puts.map Put.entry).foldlM (s.setNamed d) a =
        .ok (puts.foldl (fun a p => p.set a) a) := by
    induction puts with
    | nil => exact fun _ => rfl
    | cons p rest ih =>
        intro a
        have hnow := sets p List.mem_cons_self a
        rw [List.map_cons, List.foldlM_cons, hnow]
        exact ih (fun q hq => sets q (List.mem_cons_of_mem p hq)) (p.set a)
  exact hfold s.initial

/-- Entries that are apart from each other set the same in any order: they are
those of the puts, reordered. -/
theorem decode_of_sets
    {entries : List (String × Value)} {puts : List (Put α)}
    (sets : ∀ p ∈ puts, s.Sets d p)
    (apart : puts.Pairwise Apart)
    (perm : entries.Perm (puts.map Put.entry)) :
    s.decode d (.table entries) =
      .ok (puts.foldl (fun a p => p.set a) s.initial) := by
  obtain ⟨others, hentries, hothers⟩ :
      ∃ others : List (Put α),
        entries = others.map Put.entry ∧ others.Perm puts := by
    rw [← congrFun₂ (List.eq_map_comp_perm _) entries puts] at perm
    exact perm
  have hsets : ∀ p ∈ others, s.Sets d p :=
    fun p hp => sets p (hothers.mem_iff.mp hp)
  have hapart : ∀ p ∈ others, ∀ q ∈ others, Apart p q := by
    have hpairs := hothers.symm.pairwise apart Apart.symm
    exact hpairs.forall_of_forall_of_flip (fun _ _ _ => rfl)
      (hpairs.imp Apart.symm)
  rw [decode, hentries, ofEntries_of_sets hsets]
  refine congrArg _ (hothers.foldl_eq' ?_ _)
  exact fun p hp q hq => hapart p hp q hq

end Schema

/-! ## The sections -/

/-- The entries of a section, as they are written. -/
def ConnectionSettings.entries
    (c : ConnectionSettings) : List (String × Value) :=
  [ ("read_size", .ofNat c.readSize.toNat),
    ("preview_len", .ofNat c.previewLength.toNat) ]

/-- The entries of a section, as they are written. -/
def ListenerSettings.entries
    (l : ListenerSettings) : List (String × Value) :=
  [ ("bind_address", .string l.bindAddress),
    ("max_connections", .ofNat l.maxConnections.toNat) ]

/-- The entries of a section, as they are written. -/
def ReportSettings.entries
    (r : ReportSettings) : List (String × Value) :=
  [ ("log_level", .string r.logLevel),
    ("log_format", .string r.logFormat.word),
    ("metrics_enabled", .bool r.metricsEnabled),
    ("metrics_address", .string r.metricsAddress) ]

namespace Settings

open Schema

variable {entries : List (String × Value)} {d : Dialect}

theorem decode_connection
    {c : ConnectionSettings}
    (perm : entries.Perm c.entries) :
    connectionSchema.decode d (.table entries) = .ok c := by
  let puts : List (Put ConnectionSettings) :=
    [ .of "read_size" (.ofNat c.readSize.toNat)
        (fun x s => { s with readSize := x }) c.readSize,
      .of "preview_len" (.ofNat c.previewLength.toNat)
        (fun x s => { s with previewLength := x }) c.previewLength ]
  have hsets : ∀ p ∈ puts, connectionSchema.Sets d p := by
    simp only [puts, List.forall_mem_cons]
    exact ⟨sets_field rfl (Decoder.count_ofNat d _),
      sets_field rfl (Decoder.count_ofNat d _), by simp⟩
  have hapart : puts.Pairwise Apart := by
    simp [puts, Put.of, Apart]
  exact decode_of_sets hsets hapart perm

theorem decode_listener
    {l : ListenerSettings}
    (perm : entries.Perm l.entries) :
    listenerSchema.decode d (.table entries) = .ok l := by
  let puts : List (Put ListenerSettings) :=
    [ .of "bind_address" (.string l.bindAddress)
        (fun x s => { s with bindAddress := x }) l.bindAddress,
      .of "max_connections" (.ofNat l.maxConnections.toNat)
        (fun x s => { s with maxConnections := x }) l.maxConnections ]
  have hsets : ∀ p ∈ puts, listenerSchema.Sets d p := by
    simp only [puts, List.forall_mem_cons]
    exact ⟨sets_field rfl rfl,
      sets_field rfl (Decoder.count_ofNat d _), by simp⟩
  have hapart : puts.Pairwise Apart := by
    simp [puts, Put.of, Apart]
  exact decode_of_sets hsets hapart perm

theorem decode_report
    {r : ReportSettings}
    (perm : entries.Perm r.entries) :
    reportSchema.decode d (.table entries) = .ok r := by
  let puts : List (Put ReportSettings) :=
    [ .of "log_level" (.string r.logLevel)
        (fun x s => { s with logLevel := x }) r.logLevel,
      .of "log_format" (.string r.logFormat.word)
        (fun x s => { s with logFormat := x }) r.logFormat,
      .of "metrics_enabled" (.bool r.metricsEnabled)
        (fun x s => { s with metricsEnabled := x }) r.metricsEnabled,
      .of "metrics_address" (.string r.metricsAddress)
        (fun x s => { s with metricsAddress := x }) r.metricsAddress ]
  have hsets : ∀ p ∈ puts, reportSchema.Sets d p := by
    simp only [puts, List.forall_mem_cons]
    exact ⟨sets_field rfl rfl,
      sets_field rfl (Decoder.logFormat_word d _),
      sets_field rfl rfl, sets_field rfl rfl, by simp⟩
  have hapart : puts.Pairwise Apart := by
    simp [puts, Put.of, Apart]
  exact decode_of_sets hsets hapart perm

/-! ## All settings -/

/-- A document holds the settings: it is a table of one table for each section,
with the entries of each in any order. -/
inductive WrittenAs (s : Settings) : Value → Prop
  | intro
      {connection listener report sections : List (String × Value)}
      (of_connection : connection.Perm s.connection.entries)
      (of_listener : listener.Perm s.listener.entries)
      (of_report : report.Perm s.report.entries)
      (of_sections :
        sections.Perm
          [ ("connection", .table connection),
            ("listener", .table listener),
            ("observability", .table report) ]) :
      WrittenAs s (.table sections)

variable {s : Settings} {v : Value}

theorem writtenAs_toValue
    (s : Settings) :
    s.WrittenAs s.toValue := by
  exact .intro (.refl _) (.refl _) (.refl _) (.refl _)

/-- The settings come back from a document that holds them. -/
theorem decode_of_writtenAs
    (written : s.WrittenAs v) :
    decode d v = .ok s := by
  obtain @⟨connection, listener, report, sections, hconnection, hlistener,
    hreport, hsections⟩ := written
  let puts : List (Put Settings) :=
    [ .of "connection" (.table connection)
        (fun x t => { t with connection := x }) s.connection,
      .of "listener" (.table listener)
        (fun x t => { t with listener := x }) s.listener,
      .of "observability" (.table report)
        (fun x t => { t with report := x }) s.report ]
  have hsets : ∀ p ∈ puts, schema.Sets d p := by
    simp only [puts, List.forall_mem_cons]
    exact ⟨sets_field rfl (decode_connection hconnection),
      sets_field rfl (decode_listener hlistener),
      sets_field rfl (decode_report hreport), by simp⟩
  have hapart : puts.Pairwise Apart := by
    simp [puts, Put.of, Apart]
  exact decode_of_sets hsets hapart hsections

theorem faithful_table
    {depth : Nat} {others : List (String × Value)}
    (perm : entries.Perm others)
    (all : ∀ e ∈ others, Json.Faithful depth e.2) :
    Json.Faithful (depth + 1) (.table entries) := by
  exact .table fun e he => all e (perm.mem_iff.mp he)

/-- A document that holds settings is read back from its text. -/
theorem faithful_of_writtenAs
    (written : s.WrittenAs v) :
    Json.Faithful Json.maxDepth v := by
  obtain ⟨hconnection, hlistener, hreport, hsections⟩ := written
  refine faithful_table hsections ?_
  simp only [List.forall_mem_cons]
  refine ⟨faithful_table hconnection ?_, faithful_table hlistener ?_,
    faithful_table hreport ?_, by simp⟩
  · simp only [ConnectionSettings.entries, List.forall_mem_cons]
    exact ⟨.natural (UInt64.toNat_lt _), .natural (UInt64.toNat_lt _), by simp⟩
  · simp only [ListenerSettings.entries, List.forall_mem_cons]
    exact ⟨.string _, .natural (UInt64.toNat_lt _), by simp⟩
  · simp only [ReportSettings.entries, List.forall_mem_cons]
    exact ⟨.string _, .string _, .bool _, .string _, by simp⟩

/-! ## The way through a text -/

/-- The settings that a text in JSON describes, before validation. -/
def ofJson (text : String) : Except SettingsError Settings :=
  match Json.parse? text with
  | none => .error .malformed
  | some v =>
      match decode .json v with
      | .ok s => .ok s
      | .error e => .error (.undecodable e)

/-- The valid settings that a text in JSON describes. -/
def parseJson (text : String) : Except SettingsError Settings := do
  let s ← ofJson text
  s.validated

theorem ofJson_text
    (written : s.WrittenAs v) :
    ofJson (Json.text v) = .ok s := by
  rw [ofJson, Json.parse?_text (faithful_of_writtenAs written)]
  simp only [decode_of_writtenAs written]

/-- Validation passes settings on as they are. -/
theorem validated_eq
    (s : Settings) :
    s.validated =
      match s.validate with
      | .ok _ => .ok s
      | .error vs => .error (.invalid vs) := by
  unfold validated validate
  cases s.violations <;> rfl

/-- What is accepted from a text is valid once more. -/
theorem validated_of_parse
    {text : String}
    (parsed : parse text = .ok s) :
    s.validated = .ok s := by
  unfold parse at parsed
  cases hread : ofText text with
  | error e =>
      rw [hread] at parsed
      cases parsed
  | ok t =>
      rw [hread] at parsed
      have hvalid : t.validated = .ok s := parsed
      obtain ⟨-, rfl⟩ := validated_eq_ok_iff.mp hvalid
      exact hvalid

/--
**Settings survive JSON**, whatever they are: all counts of sixty-four bits, all
strings, and both log formats, valid or not.  They may be written with the entries
of each table in any order, as the members of an object have none.

* What is written decodes to the same settings, as a document and as a text.
* Validating what is read back gives what validating the settings gives: the same
  settings, or the same violations.
* What is accepted from a text in the other format is accepted from JSON, and
  is the same.
-/
theorem survive_json
    (s : Settings) :
    s.WrittenAs s.toValue ∧
    (∀ v,
      s.WrittenAs v →
      decode .json v = .ok s ∧
      ofJson (Json.text v) = .ok s ∧
      parseJson (Json.text v) =
        match s.validate with
        | .ok _ => .ok s
        | .error vs => .error (.invalid vs)) ∧
    (∀ text v,
      parse text = .ok s →
      s.WrittenAs v →
      parseJson (Json.text v) = .ok s) := by
  have hparse : ∀ v, s.WrittenAs v → parseJson (Json.text v) = s.validated := by
    intro v written
    rw [parseJson, ofJson_text written]
    rfl
  refine ⟨writtenAs_toValue s, ?_, ?_⟩
  · intro v written
    exact ⟨decode_of_writtenAs written, ofJson_text written,
      (hparse v written).trans s.validated_eq⟩
  · intro text v parsed written
    exact (hparse v written).trans (validated_of_parse parsed)

/-- Settings with a quote and a letter beyond ASCII come back from an object with
sorted keys; they are accepted from a text of the other format, and from JSON
too. -/
theorem survive_json_sorted_keys :
    let text := "[observability]\nlog_level = '\"\u00e9'\n"
    let s : Settings := { report := { logLevel := "\"\u00e9" } }
    let v : Value :=
      .table
        [ ("connection", .table
            [ ("preview_len", .ofNat 30),
              ("read_size", .ofNat 1500) ]),
          ("listener", .table
            [ ("bind_address", .string "127.0.0.1:7000"),
              ("max_connections", .ofNat 1024) ]),
          ("observability", .table
            [ ("log_format", .string "pretty"),
              ("log_level", .string "\"\u00e9"),
              ("metrics_address", .string "127.0.0.1:9100"),
              ("metrics_enabled", .bool false) ]) ]
    parse text = .ok s ∧
    s.WrittenAs v ∧
    decode .json v = .ok s ∧
    parseJson (Json.text v) = .ok s := by
  intro text s v
  have hparse : parse text = .ok s := by
    cbv
  have written : s.WrittenAs v := by
    refine .intro (.swap _ _ _) (.refl _) ?_ (.refl _)
    exact (List.Perm.swap _ _ _).trans (.cons _ (.cons _ (.swap _ _ _)))
  obtain ⟨-, hread, haccepted⟩ := s.survive_json
  exact ⟨hparse, written, (hread v written).1, haccepted text v hparse written⟩

end Settings

end StreamServer
