import StreamServer.Proofs.SettingsFields
import StreamServer.Proofs.SettingsRoundTrip

/-!
# Two readers of one document

A document can be written in either format, and its two trees then differ at most in
the order of the entries of their tables.  The two readers have rules of their own
for lists that are too long and for a log format that is written as a table; apart
from these, they make the same of a document: the same settings, or none.  So the
settings that come of a text in one format are judged as those that come of a text
in the other.
-/

namespace StreamServer

open Value

/-! ## One document as two trees -/

namespace Value

/-- Two trees are the same but for the order of the entries of tables: what one
gives to a key, the other does. -/
inductive Same : Value → Value → Prop
  | refl
      (v : Value) :
      Same v v
  | list
      {vs ws : List Value}
      (items : List.Forall₂ Same vs ws) :
      Same (.list vs) (.list ws)
  | table
      {es fs : List (String × Value)}
      (entries : ∀ k, Option.Rel Same (lookup? k es) (lookup? k fs)) :
      Same (.table es) (.table fs)

namespace Same

variable {v w : Value}

theorem rel_refl
    (given : Option Value) :
    Option.Rel Same given given := by
  cases given with
  | none => exact .none
  | some v => exact .some (.refl v)

theorem rel_getElem?
    {vs ws : List Value}
    (items : List.Forall₂ Same vs ws)
    (i : Nat) :
    Option.Rel Same vs[i]? ws[i]? := by
  induction items generalizing i with
  | nil => exact .none
  | cons first _ ih =>
      cases i with
      | zero => exact .some first
      | succ i => exact ih i

theorem of_perm
    {es fs : List (String × Value)}
    (nodup : (keys es).Nodup)
    (perm : es.Perm fs) :
    Same (.table es) (.table fs) := by
  refine .table fun k => ?_
  rw [lookup?_perm (List.nodup_iff_count_le_one.mp nodup k) perm]
  exact rel_refl _

/-- The same trees give the same to every field. -/
theorem given?
    (same : v.Same w)
    (names : List String) (k : String) :
    Option.Rel Same (v.given? names k) (w.given? names k) := by
  cases same with
  | refl => exact rel_refl _
  | table entries => exact entries k
  | @list vs ws items =>
      simp only [Value.given?]
      cases names.idxOf? k with
      | none => exact .none
      | some i => exact rel_getElem? items i

/-- The same trees have the form of a section in both formats, unless they are too
long a list. -/
theorem formed_iff
    (same : v.Same w)
    {names : List String}
    (short : ∀ items, v = .list items → items.length ≤ names.length) :
    v.Formed names .toml ↔ w.Formed names .json := by
  cases same with
  | refl =>
      cases v with
      | list vs => exact iff_of_true (fun h => nomatch h) fun _ => short vs rfl
      | null | bool _ | integer _ | real _ | string _ | moment | table _ =>
          exact Iff.rfl
  | @list vs ws items =>
      exact iff_of_true (fun h => nomatch h) fun _ =>
        items.length_eq ▸ short vs rfl
  | table => exact Iff.rfl

end Same

end Value

/-! ## One value in two formats -/

namespace Decoder

variable {v w : Value}

theorem count_same
    (same : v.Same w) :
    SameOutcome (count .toml v) (count .json w) := by
  cases same with
  | refl => exact .refl _
  | list => exact .error _ _
  | table => exact .error _ _

theorem flag_same
    (same : v.Same w) :
    SameOutcome (flag .toml v) (flag .json w) := by
  cases same with
  | refl => exact .refl _
  | list => exact .error _ _
  | table => exact .error _ _

theorem string_same
    (same : v.Same w) :
    SameOutcome (string .toml v) (string .json w) := by
  cases same with
  | refl => exact .refl _
  | list => exact .error _ _
  | table => exact .error _ _

/-- The formats differ only in the tables that they take for a log format. -/
theorem logFormat_same
    (same : v.Same w)
    (named : ∀ entries, v ≠ .table entries) :
    SameOutcome (logFormat .toml v) (logFormat .json w) := by
  cases same with
  | refl =>
      cases v with
      | string s => exact .refl _
      | table entries => exact absurd rfl (named entries)
      | null | bool _ | integer _ | real _ | moment | list _ =>
          exact .error _ _
  | list => exact .error _ _
  | table => exact absurd rfl (named _)

end Decoder

/-! ## One section in two formats -/

/-- A section has the same outcome in both formats if its lenses have. -/
theorem Schema.decode_same
    {α : Type} {s : Schema α} {lenses : List (Lens α)} {v w : Value}
    (has : s.HasLenses lenses)
    (same : v.Same w)
    (oncev : v.Once s.names) (oncew : w.Once s.names)
    (short : ∀ items, v = .list items → items.length ≤ s.names.length)
    (lens_same :
      ∀ f ∈ lenses, ∀ x ∈ v.given? s.names f.name,
        ∀ y ∈ w.given? s.names f.name, x.Same y →
          SameOutcome (f.decoder .toml x) (f.decoder .json y)) :
    SameOutcome (s.decode .toml v) (s.decode .json w) := by
  refine decode_congr has oncev oncew (same.formed_iff short) ?_
  intro f mem
  have hsame := same.given? s.names f.name
  have hlens := lens_same f mem
  generalize v.given? s.names f.name = given at hsame hlens ⊢
  generalize w.given? s.names f.name = given' at hsame hlens ⊢
  cases hsame with
  | none => exact .none
  | some h => exact .some (hlens _ rfl _ rfl h)

namespace Settings

/-- What both formats take for the same document: its root is a table, no key that
is read stands twice, no section is a list of more items than it has fields, and
the log format is not written as a table. -/
structure Common (v : Value) : Prop where
  root : ∃ doc, v = .table doc
  once : Once v
  short :
    ∀ p ∈ sections, ∀ items,
      v.given? sectionNames p.1 = some (.list items) →
        items.length ≤ p.2.length
  named :
    ∀ entries, at? "observability" "log_format" v ≠ some (.table entries)

variable {v w : Value}

section Sections

variable (same : v.Same w)
include same

theorem connection_same
    (oncev : v.Once connectionSchema.names)
    (oncew : w.Once connectionSchema.names)
    (short : ∀ items, v = .list items → items.length ≤ 2) :
    SameOutcome (connectionSchema.decode .toml v)
      (connectionSchema.decode .json w) := by
  refine Schema.decode_same connectionSchema_hasLenses same oncev oncew short ?_
  intro f mem x _ y _ same
  simp only [connectionLenses, List.mem_cons, List.not_mem_nil, or_false] at mem
  rcases mem with rfl | rfl
  · exact Decoder.count_same same
  · exact Decoder.count_same same

theorem listener_same
    (oncev : v.Once listenerSchema.names)
    (oncew : w.Once listenerSchema.names)
    (short : ∀ items, v = .list items → items.length ≤ 2) :
    SameOutcome (listenerSchema.decode .toml v)
      (listenerSchema.decode .json w) := by
  refine Schema.decode_same listenerSchema_hasLenses same oncev oncew short ?_
  intro f mem x _ y _ same
  simp only [listenerLenses, List.mem_cons, List.not_mem_nil, or_false] at mem
  rcases mem with rfl | rfl
  · exact Decoder.string_same same
  · exact Decoder.count_same same

theorem report_same
    (oncev : v.Once reportSchema.names)
    (oncew : w.Once reportSchema.names)
    (short : ∀ items, v = .list items → items.length ≤ 4)
    (named :
      ∀ entries,
        v.given? reportSchema.names "log_format" ≠ some (.table entries)) :
    SameOutcome (reportSchema.decode .toml v)
      (reportSchema.decode .json w) := by
  refine Schema.decode_same reportSchema_hasLenses same oncev oncew short ?_
  intro f mem x hx y _ same
  simp only [reportLenses, List.mem_cons, List.not_mem_nil, or_false] at mem
  rcases mem with rfl | rfl | rfl | rfl
  · exact Decoder.string_same same
  · refine Decoder.logFormat_same same ?_
    rintro entries rfl
    exact named entries hx
  · exact Decoder.flag_same same
  · exact Decoder.string_same same

/-- The trees of one document have the same outcome in their formats. -/
theorem decode_same
    (common : Common v) (once : Once w) :
    SameOutcome (decode .toml v) (decode .json w) := by
  obtain ⟨oncev, oncev₁, oncev₂, oncev₃⟩ := everywhere_iff.mp common.once
  obtain ⟨oncew, oncew₁, oncew₂, oncew₃⟩ := everywhere_iff.mp once
  refine Schema.decode_same schema_hasLenses same oncev oncew ?_ ?_
  · rintro items rfl
    obtain ⟨doc, h⟩ := common.root
    cases h
  · intro f mem x hx y hy same
    simp only [sectionLenses, List.mem_cons, List.not_mem_nil, or_false] at mem
    rcases mem with rfl | rfl | rfl
    · refine connection_same same (oncev₁ x hx) (oncew₁ y hy) ?_
      rintro items rfl
      exact common.short _ (.head _) items hx
    · refine listener_same same (oncev₂ x hx) (oncew₂ y hy) ?_
      rintro items rfl
      exact common.short _ (.tail _ (.head _)) items hx
    · refine report_same same (oncev₃ x hx) (oncew₃ y hy) ?_ ?_
      · rintro items rfl
        exact common.short _ (.tail _ (.tail _ (.head _))) items hx
      · intro entries hformat
        have hgiven : v.given? sectionNames "observability" = some x := hx
        refine common.named entries ?_
        rw [at?, hgiven]
        exact hformat

end Sections

theorem ofText_eq
    {text : String}
    (parsed : Toml.parse? text = some v) :
    ofText text = (decode .toml v).mapError .undecodable := by
  simp only [ofText, parsed]
  cases decode .toml v <;> rfl

theorem ofJson_eq
    {text : String}
    (parsed : Json.parse? text = some v) :
    ofJson text = (decode .json v).mapError .undecodable := by
  simp only [ofJson, parsed]
  cases decode .json v <;> rfl

/--
**Two readers of one document** come to the same result, whatever the document
holds that both formats mean alike.

* From its two trees, which may list the entries of tables in other orders, come
  the same settings, or none from either.
* From two texts that are read as these trees come the same settings, which are
  accepted or rejected with the same violations; or neither text describes
  settings.
-/
theorem readers_agree
    (same : v.Same w)
    (common : Common v) (once : Once w) :
    SameOutcome (decode .toml v) (decode .json w) ∧
    ∀ text text',
      Toml.parse? text = some v →
      Json.parse? text' = some w →
      (∃ s : Settings,
        parse text = s.validated ∧ parseJson text' = s.validated) ∨
      (∃ e e',
        parse text = .error (.undecodable e) ∧
        parseJson text' = .error (.undecodable e')) := by
  have hsame := decode_same same common once
  refine ⟨hsame, ?_⟩
  intro text text' parsed parsed'
  rw [parse, parseJson, ofText_eq parsed, ofJson_eq parsed']
  generalize decode .toml v = outcome at hsame ⊢
  generalize decode .json w = outcome' at hsame ⊢
  cases hsame with
  | ok s => exact Or.inl ⟨s, rfl, rfl⟩
  | error e e' => exact Or.inr ⟨e, e', rfl, rfl⟩

/-- The same settings in two texts, with the sections in another order and one of
them given by position; both are rejected for the same violation. -/
theorem readers_agree_other_order :
    let text := "listener = ['q', 5]\n[connection]\nread_size = 9"
    let text' :=
      "\x7b\"connection\":\x7b\"read_size\":9\x7d,\"listener\":[\"q\",5]\x7d"
    let v : Value :=
      .table
        [ ("listener", .list [.string "q", .ofNat 5]),
          ("connection", .table [("read_size", .ofNat 9)]) ]
    let w : Value :=
      .table
        [ ("connection", .table [("read_size", .ofNat 9)]),
          ("listener", .list [.string "q", .ofNat 5]) ]
    Toml.parse? text = some v ∧
    Json.parse? text' = some w ∧
    v.Same w ∧
    Common v ∧
    Once w ∧
    parse text = .error (.invalid [.bindAddress "q"]) ∧
    parseJson text' = .error (.invalid [.bindAddress "q"]) := by
  have hinvalid :
      ({ connection := { readSize := 9 }
         listener := { bindAddress := "q", maxConnections := 5 } } :
        Settings).validated = .error (.invalid [.bindAddress "q"]) := by
    cbv
  intro text text' v w
  have hparse : Toml.parse? text = some v := by
    cbv
  have hparse' : Json.parse? text' = some w := by
    set_option maxRecDepth 1024 in
    cbv
  have same : v.Same w := .of_perm (by decide) (.swap _ _ _)
  have once : Once w := by
    simp [w, Once, Everywhere, Value.Once, sections, sectionNames,
      Value.given?, lookup?, keys]
  have common : Common v := by
    refine ⟨⟨_, rfl⟩, ?_, ?_, ?_⟩
    · simp [v, Once, Everywhere, Value.Once, sections, sectionNames,
        Value.given?, lookup?, keys]
    · simp [v, sections, Value.given?, lookup?]
    · simp [v, at?, Value.given?, lookup?]
  have htext : parse text = .error (.invalid [.bindAddress "q"]) := by
    rw [parse, ofText_eq hparse]
    exact hinvalid
  obtain ⟨-, htexts⟩ := readers_agree same common once
  refine ⟨hparse, hparse', same, common, once, htext, ?_⟩
  obtain ⟨s, hs, hs'⟩ | ⟨e, e', he, -⟩ := htexts text text' hparse hparse'
  · exact hs'.trans (hs.symm.trans htext)
  · cases htext.symm.trans he

end Settings

end StreamServer
