import StreamServer.Proofs.SettingsFields

/-!
# Sections given by position

A section may be given as a list, whose items are its fields in the order of their
declaration, instead of a table.  Reading by position and reading by key are two
ways through a schema; they meet in that the list is decoded as the table that
gives its items to the first fields.  The remaining fields have their defaults in
both.  Of a list that is too long one format takes the first items, and the other
refuses it.

This is said of a section in any document, be the root a table or a list, and in
one format of the root itself, whose items are the sections.
-/

namespace StreamServer

open Value

/-- Lists are decoded by position: as tables that give the items to the first
fields, with too many items cut off in one format and refused in the other. -/
structure Positional
    {β : Type} (decoder : Decoder β) (fields : List String) : Prop where
  keyed :
    ∀ d vs, vs.length ≤ fields.length →
      decoder d (.list vs) = decoder d (.table (fields.zip vs))
  first :
    ∀ vs, fields.length < vs.length →
      decoder .toml (.list vs) =
        decoder .toml (.list (vs.take fields.length))
  refused :
    ∀ vs b, fields.length < vs.length → decoder .json (.list vs) ≠ .ok b

/-! ## Sections -/

namespace Value

/-- The item at the place of a name is the value of the name. -/
theorem zip_append_cons
    {names : List String} {name : String} {before : List Value}
    (place : names.idxOf? name = some before.length)
    (v : Value) (after : List Value) :
    names.zip (before ++ v :: after) =
      (names.take before.length).zip before ++
        (name, v) :: (names.drop (before.length + 1)).zip after := by
  induction before generalizing names with
  | nil =>
      cases names with
      | nil => cases place
      | cons k rest =>
          have hname : k = name := by
            simpa [List.idxOf?_cons] using place
          rw [hname]
          rfl
  | cons x before ih =>
      cases names with
      | nil => cases place
      | cons k rest =>
          have hrest : rest.idxOf? name = some before.length := by
            rw [List.idxOf?_cons] at place
            split at place
            · cases place
            · simpa using place
          exact congrArg ((k, x) :: ·) (ih hrest)

/-- A list gives nothing to the fields after its last item. -/
theorem given?_eq_none
    {names : List String} {k : String} {vs : List Value}
    (nodup : names.Nodup)
    (beyond : k ∈ names.drop vs.length) :
    given? names k (.list vs) = none := by
  have habsent : k ∉ keys (names.zip vs) := by
    rw [keys_zip]
    exact fun mem => List.disjoint_take_drop nodup (Nat.le_refl _) mem beyond
  rw [given?, ← lookup?_zip, lookup?_of_not_mem habsent]

end Value

namespace Schema

variable {α : Type} {s : Schema α} {lenses : List (Lens α)} {d : Dialect}

theorem HasLenses.positional
    (has : s.HasLenses lenses) :
    Positional s.decode s.names where
  keyed := by
    intro d vs short
    exact ofItems_eq_ofEntries has.nodup fun _ => short
  first := by
    intro vs long
    have hall : s.decode .toml (.list vs) = s.ofEntries .toml (s.names.zip vs) :=
      ofItems_eq_ofEntries has.nodup fun h => nomatch h
    have hfirst :
        s.decode .toml (.list (vs.take s.names.length)) =
          s.ofEntries .toml (s.names.zip (vs.take s.names.length)) :=
      ofItems_eq_ofEntries has.nodup fun h => nomatch h
    have hzip : s.names.zip vs = s.names.zip (vs.take s.names.length) := by
      rw [List.zip_eq_zip_take_min, min_eq_left long.le, List.take_length]
    rw [hall, hfirst, hzip]
  refused := by
    intro vs a long
    exact ofItems_ne_ok has.nodup (fun formed => by have := formed rfl; omega) a

variable {k : String} {v w : Value}

/-- An entry in the midst of a table counts by what it sets. -/
theorem ofEntries_congr
    (same : ∀ a, s.setNamed d a (k, v) = s.setNamed d a (k, w))
    (before after : List (String × Value)) :
    s.ofEntries d (before ++ (k, v) :: after) =
      s.ofEntries d (before ++ (k, w) :: after) := by
  simp only [ofEntries, List.foldlM_append, List.foldlM_cons, same]

theorem ofEntries_ne_ok
    (never : ∀ a a', s.setNamed d a (k, v) ≠ .ok a')
    (before after : List (String × Value)) (a : α) :
    s.ofEntries d (before ++ (k, v) :: after) ≠ .ok a := by
  rw [ofEntries, List.foldlM_append]
  cases before.foldlM (s.setNamed d) s.initial with
  | error e =>
      intro h
      cases h
  | ok b =>
      intro h
      change ((k, v) :: after).foldlM (s.setNamed d) b = .ok a at h
      rw [List.foldlM_cons] at h
      cases hset : s.setNamed d b (k, v) with
      | error e =>
          rw [hset] at h
          cases h
      | ok a' => exact never b a' hset

end Schema

/-! ## Documents -/

namespace Settings

/-- A document in which one section is left open: its root is a table or, in one
format, a list. -/
inductive Frame
  | keyed (before after : List (String × Value))
  | listed (before after : List Value)

namespace Frame

/-- The open section is at the place of a name. -/
def Opens (name : String) : Frame → Prop
  | keyed _ _ => True
  | listed before _ => sectionNames.idxOf? name = some before.length

/-- The document with a value for the open section. -/
def fill (name : String) (v : Value) : Frame → Value
  | keyed before after => .table (before ++ (name, v) :: after)
  | listed before after => .list (before ++ v :: after)

/-- What is given before the open section, by key. -/
def before : Frame → List (String × Value)
  | keyed before _ => before
  | listed before _ => (sectionNames.take before.length).zip before

/-- What is given after the open section, by key. -/
def after : Frame → List (String × Value)
  | keyed _ after => after
  | listed before after =>
      (sectionNames.drop (before.length + 1)).zip after

variable {frame : Frame} {name : String} {d : Dialect}

/-- A document is decoded by key, and then judged by what is in it besides the open
section. -/
theorem exists_decode_fill
    (opens : frame.Opens name)
    (d : Dialect) :
    ∃ judge : Settings → Except DecodeError Settings,
      ∀ v,
        decode d (frame.fill name v) =
          (schema.ofEntries d
            (frame.before ++ (name, v) :: frame.after)).bind judge := by
  cases frame with
  | keyed before after =>
      refine ⟨.ok, fun v => ?_⟩
      change schema.ofEntries d (before ++ (name, v) :: after) =
        (schema.ofEntries d (before ++ (name, v) :: after)).bind .ok
      cases schema.ofEntries d (before ++ (name, v) :: after) <;> rfl
  | listed before after =>
      refine ⟨fun s =>
        if d = .json ∧ schema.names.length < before.length + after.length + 1 then
          .error (.tooManyItems (before.length + after.length + 1))
        else .ok s, fun v => ?_⟩
      have hplace : schema.names.idxOf? name = some before.length := opens
      have hlength :
          (before ++ v :: after).length = before.length + after.length + 1 := by
        simp [Nat.add_assoc]
      have hdecode :
          decode d (fill name v (.listed before after)) =
            schema.ofItems d (before ++ v :: after) := rfl
      rw [hdecode, Schema.ofItems_eq schema_hasLenses.nodup,
        zip_append_cons hplace, hlength]
      rfl

end Frame

variable {name : String} {fields : List String} {frame : Frame}

/-- A section is decoded by position. -/
theorem exists_positional_lens
    (listed : (name, fields) ∈ sections) :
    ∃ f ∈ sectionLenses, f.name = name ∧ Positional f.decoder fields := by
  have hname : name ∈ sectionNames := List.mem_map_of_mem listed
  have hnames : sectionNames = sectionLenses.map Lens.name := rfl
  rw [hnames] at hname
  obtain ⟨f, mem, rfl⟩ := List.mem_map.mp hname
  obtain ⟨inner, lenses, has, rfl, hdecoder⟩ := exists_schema mem listed
  exact ⟨f, mem, rfl, hdecoder ▸ has.positional⟩

/-- A document is decoded by position as far as one of its sections goes. -/
theorem positional_fill
    (listed : (name, fields) ∈ sections)
    (opens : frame.Opens name) :
    Positional (fun d v => decode d (frame.fill name v)) fields := by
  obtain ⟨f, mem, rfl, hf⟩ := exists_positional_lens listed
  have hcongr (d : Dialect) {v w : Value} (same : f.decoder d v = f.decoder d w) :
      decode d (frame.fill f.name v) = decode d (frame.fill f.name w) := by
    obtain ⟨judge, hdecode⟩ := Frame.exists_decode_fill opens d
    rw [hdecode, hdecode, Schema.ofEntries_congr]
    intro s
    rw [schema_hasLenses.setNamed_lens mem, schema_hasLenses.setNamed_lens mem, same]
  refine ⟨fun d vs short => hcongr d (hf.keyed d vs short),
    fun vs long => hcongr .toml (hf.first vs long), fun vs s long => ?_⟩
  have hnever (a a' : Settings) :
      schema.setNamed .json a (f.name, .list vs) ≠ .ok a' := by
    rw [schema_hasLenses.setNamed_lens mem]
    cases hvs : f.decoder .json (.list vs) with
    | error e => exact fun h => nomatch h
    | ok b => exact absurd hvs (hf.refused vs b long)
  obtain ⟨judge, hdecode⟩ := Frame.exists_decode_fill opens .json
  intro h
  simp only [hdecode] at h
  cases hentries :
      schema.ofEntries .json
        (frame.before ++ (f.name, .list vs) :: frame.after) with
  | error e =>
      rw [hentries] at h
      cases h
  | ok a => exact Schema.ofEntries_ne_ok hnever _ _ a hentries

/-! ## Defaults -/

/-- What settings have at the path of a field, as it is written. -/
def written? (s : Settings) (name field : String) : Option Value :=
  (s.toValue.get? name).bind (·.get? field)

/-- A field that is given nothing has its default. -/
theorem ReadOff.written?_eq
    {d : Dialect} {v : Value} {s : Settings}
    (read : ReadOff d v s)
    {field : String}
    (listed : (name, fields) ∈ sections)
    (mem : field ∈ fields)
    (nothing : at? name field v = none) :
    s.written? name field = ({} : Settings).written? name field := by
  simp only [sections, List.mem_cons, List.not_mem_nil, or_false,
    Prod.mk.injEq] at listed
  obtain ⟨rfl, rfl⟩ | ⟨rfl, rfl⟩ | ⟨rfl, rfl⟩ := listed
  all_goals simp only [List.mem_cons, List.not_mem_nil, or_false] at mem
  · rcases mem with rfl | rfl
    · have h := read.readSize.of_none nothing
      simp [written?, toValue, get?, lookup?, h]
    · have h := read.previewLength.of_none nothing
      simp [written?, toValue, get?, lookup?, h]
  · rcases mem with rfl | rfl
    · have h := read.bindAddress.of_none nothing
      simp [written?, toValue, get?, lookup?, h]
    · have h := read.maxConnections.of_none nothing
      simp [written?, toValue, get?, lookup?, h]
  · rcases mem with rfl | rfl | rfl | rfl
    · have h := read.logLevel.of_none nothing
      simp [written?, toValue, get?, lookup?, h]
    · have h := read.logFormat.of_none nothing
      simp [written?, toValue, get?, lookup?, h]
    · have h := read.metricsEnabled.of_none nothing
      simp [written?, toValue, get?, lookup?, h]
    · have h := read.metricsAddress.of_none nothing
      simp [written?, toValue, get?, lookup?, h]

theorem fieldsOf_eq
    (listed : (name, fields) ∈ sections) :
    fieldsOf name = fields := by
  simp only [sections, List.mem_cons, List.not_mem_nil, or_false,
    Prod.mk.injEq] at listed
  obtain ⟨rfl, rfl⟩ | ⟨rfl, rfl⟩ | ⟨rfl, rfl⟩ := listed <;> rfl

/-- What a document gives to the fields of the section that was left open. -/
theorem at?_fill
    (listed : (name, fields) ∈ sections)
    (opens : frame.Opens name)
    {v : Value}
    (once : Value.Once sectionNames (frame.fill name v))
    (field : String) :
    at? name field (frame.fill name v) = v.given? fields field := by
  have hgiven : (frame.fill name v).given? sectionNames name = some v := by
    cases frame with
    | keyed before after =>
        have hname : name ∈ sectionNames := List.mem_map_of_mem listed
        exact (lookup?_eq_some_iff (once name hname)).mpr (by simp)
    | listed before after =>
        rw [Frame.fill, given?, show _ = some before.length from opens]
        simp
  rw [at?, hgiven, fieldsOf_eq listed]
  rfl

/--
**Sections by position and by key.**

* Any section of any document, given as a list of no more items than it has fields,
  is decoded as the table that gives the items to the first fields, whatever the
  items; the remaining fields have their defaults.  Of more items one format takes
  the first ones, and the other refuses the document.
* The same holds of a document that is itself a list, of its sections.
-/
theorem positional_as_keyed
    (listed : (name, fields) ∈ sections)
    (opens : frame.Opens name) :
    Positional (fun d v => decode d (frame.fill name v)) fields ∧
    (∀ d items s,
      Once (frame.fill name (.list items)) →
      decode d (frame.fill name (.list items)) = .ok s →
      ∀ field ∈ fields.drop items.length,
        s.written? name field = ({} : Settings).written? name field) ∧
    Positional decode sectionNames ∧
    (∀ d items s,
      Once (.list items) →
      decode d (.list items) = .ok s →
      ∀ p ∈ sections.drop items.length, ∀ field ∈ p.2,
        s.written? p.1 field = ({} : Settings).written? p.1 field) := by
  refine ⟨positional_fill listed opens, ?_, schema_hasLenses.positional, ?_⟩
  · intro d items s once decoded field mem
    have hread := ((decode_eq_ok_iff once).mp decoded).2
    refine hread.written?_eq listed (List.mem_of_mem_drop mem) ?_
    have hall : ∀ p ∈ sections, p.2.Nodup := by
      decide
    have hnodup : fields.Nodup := hall (name, fields) listed
    rw [at?_fill listed opens once.1, given?_eq_none hnodup mem]
  · intro d items s once decoded p mem field hfield
    have hread := ((decode_eq_ok_iff once).mp decoded).2
    refine hread.written?_eq (List.mem_of_mem_drop mem) hfield ?_
    have hbeyond : p.1 ∈ sectionNames.drop items.length := by
      rw [sectionNames, ← List.map_drop]
      exact List.mem_map_of_mem mem
    have hnone : given? sectionNames p.1 (.list items) = none :=
      given?_eq_none schema_hasLenses.nodup hbeyond
    rw [at?, hnone]
    rfl

/-- A list of a list, a table and a list: the last is read as a table, and is too
long with one item more than there are fields. -/
theorem positional_as_keyed_last_of_three :
    let name := "observability"
    let fields :=
      ["log_level", "log_format", "metrics_enabled", "metrics_address"]
    let frame : Frame :=
      .listed [.list [.ofNat 9000], .table [("max_connections", .ofNat 2)]] []
    let s : Settings :=
      { connection := { readSize := 9000 }
        listener := { maxConnections := 2 }
        report := { logLevel := "warn", logFormat := .json } }
    (name, fields) ∈ sections ∧
    frame.Opens name ∧
    decode .json
        (frame.fill name (.table
          [("log_level", .string "warn"), ("log_format", .string "json")])) =
      .ok s ∧
    ∀ t,
      decode .json
          (frame.fill name (.list
            [ .string "warn", .string "json", .bool false,
              .string "127.0.0.1:9100", .null ])) ≠
        .ok t := by
  intro name fields frame s
  have listed : (name, fields) ∈ sections := .tail _ (.tail _ (.head _))
  have opens : frame.Opens name := rfl
  obtain ⟨hpositional, -⟩ := positional_as_keyed listed opens
  refine ⟨listed, opens, ?_, fun t => hpositional.refused _ t (by decide)⟩
  have hkeyed :=
    hpositional.keyed .json [.string "warn", .string "json"] (by decide)
  exact hkeyed.symm.trans rfl

end Settings

end StreamServer
