import StreamServer.Proofs.SettingsFields

/-!
# Documents in another order

The entries of a table have no order, and a table may have entries that nobody
reads.  Two documents that differ in nothing else are decoded with the same
outcome: to the same settings, or to none, though the error that is met first may
be another one.  The documents may have any number of faults.

A change is a single step here: another order of the root or of a section, or a
stray entry put into one of them.  What one step keeps, any number of them keeps,
forwards and backwards, so that stray entries may be taken out as well.
-/

namespace StreamServer

open Value

/-! ## Tables -/

namespace Value

/-- A change of a table that nobody sees who reads only the known keys: another
order, or an entry more whose key is not known. -/
inductive Edit (known : List String) :
    List (String × Value) → List (String × Value) → Prop
  | order
      {es fs : List (String × Value)}
      (perm : es.Perm fs) :
      Edit known es fs
  | stray
      {k : String}
      (unknown : k ∉ known)
      (v : Value) (before after : List (String × Value)) :
      Edit known (before ++ after) (before ++ (k, v) :: after)

namespace Edit

variable {known : List String} {es fs : List (String × Value)} {k : String}

theorem count_eq
    (edit : Edit known es fs)
    (mem : k ∈ known) :
    (keys es).count k = (keys fs).count k := by
  cases edit with
  | order perm => exact count_keys_perm perm k
  | @stray name unknown v before after =>
      have hne : name ≠ k := by
        rintro rfl
        exact unknown mem
      simp [keys, hne]

theorem once_iff
    (edit : Edit known es fs) :
    Value.Once known (.table es) ↔ Value.Once known (.table fs) := by
  refine forall₂_congr fun k mem => ?_
  rw [edit.count_eq mem]

theorem lookup?_eq
    (edit : Edit known es fs)
    (once : Value.Once known (.table es))
    (mem : k ∈ known) :
    lookup? k es = lookup? k fs := by
  cases edit with
  | order perm => exact lookup?_perm (once k mem) perm
  | @stray name unknown v before after =>
      have hne : name ≠ k := by
        rintro rfl
        exact unknown mem
      rw [lookup?_append, lookup?_append, lookup?_cons_ne hne]

end Edit

/-- An entry that is replaced changes what its own key stands for. -/
theorem rel_lookup?_replace
    {R : Value → Value → Prop}
    (same : ∀ v, R v v)
    {k name : String} {x y : Value}
    (replaced : k = name → R x y)
    (before after : List (String × Value)) :
    Option.Rel R
      (lookup? k (before ++ (name, x) :: after))
      (lookup? k (before ++ (name, y) :: after)) := by
  have hrefl : ∀ o, Option.Rel R o o := by
    rintro (_ | v)
    · exact .none
    · exact .some (same v)
  rw [lookup?_append, lookup?_append]
  cases lookup? k before with
  | some v => exact .some (same v)
  | none =>
      by_cases hkey : k = name
      · subst hkey
        rw [lookup?_cons_self, lookup?_cons_self]
        exact .some (replaced rfl)
      · rw [lookup?_cons_ne (Ne.symm hkey), lookup?_cons_ne (Ne.symm hkey)]
        exact hrefl _

end Value

/-- An edit of a section leaves the outcome as it is. -/
theorem Schema.decode_edit
    {α : Type} {s : Schema α} {lenses : List (Lens α)} {d : Dialect}
    (has : s.HasLenses lenses)
    {es fs : List (String × Value)}
    (once : Value.Once s.names (.table es))
    (edit : Value.Edit s.names es fs) :
    SameOutcome (s.decode d (.table es)) (s.decode d (.table fs)) := by
  refine decode_congr has once (edit.once_iff.mp once) Iff.rfl ?_
  intro f mem
  have hgiven : lookup? f.name es = lookup? f.name fs :=
    edit.lookup?_eq once (has.name_mem mem)
  simp only [given?, hgiven]
  cases lookup? f.name fs with
  | none => exact .none
  | some v => exact .some (.refl _)

/-! ## Documents -/

namespace Settings

/-- A change of a document that nobody sees: an edit of its root, or of one of its
sections. -/
inductive Edit : List (String × Value) → List (String × Value) → Prop
  | root
      {es fs : List (String × Value)}
      (edit : Value.Edit sectionNames es fs) :
      Edit es fs
  | within
      {name : String} {fields : List String}
      (listed : (name, fields) ∈ sections)
      {es fs : List (String × Value)}
      (edit : Value.Edit fields es fs)
      (before after : List (String × Value)) :
      Edit (before ++ (name, .table es) :: after)
        (before ++ (name, .table fs) :: after)

variable {d : Dialect} {doc doc' : List (String × Value)}

/-- An edit of any of the sections leaves its outcome as it is. -/
theorem decode_edit_section
    {f : Lens Settings}
    (mem : f ∈ sectionLenses)
    {fields : List String}
    (listed : (f.name, fields) ∈ sections)
    {es fs : List (String × Value)}
    (once : Value.Once fields (.table es))
    (edit : Value.Edit fields es fs) :
    SameOutcome (f.decoder d (.table es)) (f.decoder d (.table fs)) := by
  obtain ⟨inner, lenses, has, rfl, hdecoder⟩ := exists_schema mem listed
  rw [hdecoder]
  exact Schema.decode_edit has once edit

/-- The fields of a section are listed once. -/
theorem fields_unique
    {name : String} {fields fields' : List String}
    (listed : (name, fields) ∈ sections)
    (listed' : (name, fields') ∈ sections) :
    fields = fields' := by
  have hnodup : (sections.map Prod.fst).Nodup := by
    decide
  exact congrArg Prod.snd (List.inj_on_of_nodup_map hnodup listed listed' rfl)

/-- What the sections are before and after a change: the same, or one of them is
edited. -/
theorem Edit.rel_lookup?
    (edit : Edit doc doc')
    (once : Value.Once sectionNames (.table doc))
    {name : String} {fields : List String}
    (listed : (name, fields) ∈ sections)
    {R : Value → Value → Prop}
    (same : ∀ v, R v v)
    (edited :
      ∀ es fs, Value.Edit fields es fs → R (.table es) (.table fs)) :
    Option.Rel R (lookup? name doc) (lookup? name doc') := by
  cases edit with
  | root edit =>
      rw [edit.lookup?_eq once (List.mem_map_of_mem listed)]
      cases lookup? name doc' with
      | none => exact .none
      | some v => exact .some (same v)
  | @within name' fields' listed' es fs edit before after =>
      refine rel_lookup?_replace same ?_ before after
      rintro rfl
      rw [← fields_unique listed listed'] at edit
      exact edited es fs edit

theorem Edit.root_once_iff
    (edit : Edit doc doc') :
    Value.Once sectionNames (.table doc) ↔
      Value.Once sectionNames (.table doc') := by
  cases edit with
  | root edit => exact edit.once_iff
  | within listed edit before after =>
      simp [Value.Once, keys]

theorem Edit.once_iff
    (edit : Edit doc doc') :
    Once (.table doc) ↔ Once (.table doc') := by
  rw [Once, Once, Everywhere, Everywhere, ← edit.root_once_iff]
  refine and_congr_right fun root => forall₂_congr fun p listed => ?_
  have hrel :
      Option.Rel (fun x y => x.Once p.2 ↔ y.Once p.2)
        (lookup? p.1 doc) (lookup? p.1 doc') :=
    edit.rel_lookup? root listed (fun _ => Iff.rfl)
      fun _ _ edit => edit.once_iff
  simp only [given?]
  generalize lookup? p.1 doc = given at hrel ⊢
  generalize lookup? p.1 doc' = given' at hrel ⊢
  cases hrel with
  | none => simp
  | some same => simpa using same

/-- What one change leaves as it is. -/
theorem Edit.decode
    (edit : Edit doc doc')
    (once : Once (.table doc)) :
    SameOutcome (decode d (.table doc)) (decode d (.table doc')) := by
  have once' := edit.once_iff.mp once
  refine Schema.decode_congr schema_hasLenses once.1 once'.1 Iff.rfl ?_
  intro f mem
  have hname : f.name ∈ sections.map Prod.fst :=
    schema_hasLenses.name_mem mem
  obtain ⟨⟨name, fields⟩, listed, rfl⟩ := List.mem_map.mp hname
  have hrel :
      Option.Rel
        (fun x y =>
          x.Once fields → SameOutcome (f.decoder d x) (f.decoder d y))
        (lookup? f.name doc) (lookup? f.name doc') := by
    refine edit.rel_lookup? once.1 listed (fun v _ => .refl _) ?_
    intro es fs edit honce
    exact decode_edit_section mem listed honce edit
  have honce := once.2 (f.name, fields) listed
  simp only [given?] at honce ⊢
  generalize lookup? f.name doc = given at hrel honce ⊢
  generalize lookup? f.name doc' = given' at hrel ⊢
  cases hrel with
  | none => exact .none
  | some same => exact .some (same (honce _ rfl))

/-- What any number of changes leaves as it is. -/
theorem edits_keep
    (edits : Relation.EqvGen Edit doc doc') :
    (Once (.table doc) ↔ Once (.table doc')) ∧
    (Once (.table doc) →
      SameOutcome (decode d (.table doc)) (decode d (.table doc'))) := by
  induction edits with
  | rel doc doc' edit => exact ⟨edit.once_iff, edit.decode⟩
  | refl doc => exact ⟨Iff.rfl, fun _ => .refl _⟩
  | symm doc doc' _ ih =>
      obtain ⟨honce, hsame⟩ := ih
      exact ⟨honce.symm, fun once => (hsame (honce.mpr once)).symm⟩
  | trans doc doc' doc'' _ _ first second =>
      obtain ⟨honce, hsame⟩ := first
      obtain ⟨honce', hsame'⟩ := second
      exact ⟨honce.trans honce', fun once =>
        (hsame once).trans (hsame' (honce.mp once))⟩

/--
**Key order and stray keys do not matter, and what is absent has its default**, in
either format and for every document in which no key that is read stands twice,
whatever its faults.

* Any number of changes of the order of the root or of a section, and of entries
  with unknown keys and arbitrary values put in there or taken out, leave the
  outcome as it is: the same settings, or no settings.
* There are settings exactly if the document and its sections are of the right
  form and the settings can be read off it, each field by itself: the field is the
  value at its path, and its default if the document has nothing there.
-/
theorem order_and_strays_unseen
    (once : Once (.table doc))
    (edits : Relation.EqvGen Edit doc doc') :
    SameOutcome (decode d (.table doc)) (decode d (.table doc')) ∧
    ∀ s : Settings,
      decode d (.table doc) = .ok s ↔
        Formed d (.table doc) ∧ ReadOff d (.table doc) s := by
  obtain ⟨-, hsame⟩ := edits_keep edits
  exact ⟨hsame once, fun s => decode_eq_ok_iff once⟩

/-- A section in another order, a stray entry in another section and one in front
of both sections, which change places. -/
theorem order_and_strays_unseen_both_sections :
    let doc : List (String × Value) :=
      [ ("connection", .table [("read_size", .ofNat 9000)]),
        ("observability", .table
          [ ("log_format", .table [("json", .table [])]),
            ("metrics_enabled", .bool true) ]) ]
    let doc' : List (String × Value) :=
      [ ("extra", .list [.null, .ofNat 1]),
        ("observability", .table
          [ ("metrics_enabled", .bool true),
            ("log_format", .table [("json", .table [])]) ]),
        ("connection", .table
          [ ("read_size", .ofNat 9000),
            ("bind_address", .moment) ]) ]
    let s : Settings :=
      { connection := { readSize := 9000 }
        report := { logFormat := .json, metricsEnabled := true } }
    Once (.table doc) ∧
    Relation.EqvGen Edit doc doc' ∧
    decode .toml (.table doc') = .ok s ∧
    ReadOff .toml (.table doc) s := by
  intro doc doc' s
  have once : Once (.table doc) := by
    simp [doc, Once, Everywhere, Value.Once, sections, sectionNames, given?,
      lookup?, keys]
  have edits : Relation.EqvGen Edit doc doc' := by
    have hreport : (_, _) ∈ sections := .tail _ (.tail _ (.head _))
    have hconnection : (_, _) ∈ sections := .head _
    refine .trans _ _ _ (.rel _ _ (.within hreport
      (.order (.swap _ _ _)) [_] [])) ?_
    refine .trans _ _ _ (.rel _ _ (.within hconnection
      (.stray (k := "bind_address") (by decide) .moment [_] []) [] [_])) ?_
    refine .trans _ _ _ (.rel _ _ (.root (.order (.swap _ _ _)))) ?_
    exact .rel _ _ (.root (.stray (by decide) _ [] _))
  have hdecode : decode .toml (.table doc) = .ok s := rfl
  obtain ⟨hsame, hread⟩ := order_and_strays_unseen once edits (d := .toml)
  exact ⟨once, edits, (sameOutcome_iff.mp hsame s).mp hdecode,
    ((hread s).mp hdecode).2⟩

end Settings

end StreamServer
