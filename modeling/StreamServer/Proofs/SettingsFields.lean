import Mathlib
import StreamServer.Settings.Decode

/-!
# What decides a field of the settings

A section is decoded from its entries one after the other, each of them setting a
field of the section that is there so far.  The result can be said without that
order: a field shows the value that the document gives to it, and its default if
it is given none.  Nothing else of a document is seen.

For this, each field is taken as a lens, with a way to read it back after it was
put in; a lens gives back what was put into it and keeps it when another lens is
put in.  The main statements are about any section with such lenses, and so about
all the settings, whose lenses are the sections.

* `Schema.decode_eq_ok_iff`: the sections that come of a value are those whose
  lenses hold what the value gives to them.
* `Schema.decode_congr`: two values that give the lenses values with the same
  outcome have the same outcome, be they of one format or of two.
* `Settings.decode_eq_ok_iff`: the same of a whole document, field by field and
  without the decoders.
-/

namespace StreamServer

/-! ## Tables -/

namespace Value

variable {k : String} {v : Value} {es fs : List (String × Value)}

/-- The keys of a table, in the order of its entries. -/
def keys (entries : List (String × Value)) : List String :=
  entries.map Prod.fst

/-- A key that stands only once is found wherever it stands. -/
theorem find?_of_once
    {β : Type} {x : β} {pairs : List (String × β)}
    (once : (pairs.map Prod.fst).count k ≤ 1)
    (mem : (k, x) ∈ pairs) :
    pairs.find? (fun e => e.1 == k) = some (k, x) := by
  induction pairs with
  | nil => cases mem
  | cons e rest ih =>
      by_cases hkey : e.1 = k
      · have habsent : k ∉ rest.map Prod.fst := by
          simpa [hkey, List.count_eq_zero] using once
        rcases List.mem_cons.mp mem with rfl | hrest
        · simp
        · exact absurd (List.mem_map_of_mem hrest) habsent
      · have hrest : (k, x) ∈ rest := by
          refine (List.mem_cons.mp mem).resolve_left ?_
          rintro rfl
          exact hkey rfl
        have honce : (rest.map Prod.fst).count k ≤ 1 := by
          simpa [hkey] using once
        rw [List.find?_cons_of_neg (by simpa using hkey)]
        exact ih honce hrest

theorem lookup?_cons_self :
    lookup? k ((k, v) :: es) = some v := by
  simp [lookup?]

theorem lookup?_cons_ne
    {e : String × Value}
    (other : e.1 ≠ k) :
    lookup? k (e :: es) = lookup? k es := by
  simp [lookup?, other]

theorem lookup?_append
    (k : String) (es fs : List (String × Value)) :
    lookup? k (es ++ fs) = (lookup? k es).or (lookup? k fs) := by
  simp only [lookup?, List.find?_append]
  cases es.find? fun e => e.1 == k <;> rfl

theorem lookup?_of_not_mem
    (absent : k ∉ keys es) :
    lookup? k es = none := by
  rw [lookup?, Option.map_eq_none_iff, List.find?_eq_none]
  intro e mem hkey
  exact absent (List.mem_map.mpr ⟨e, mem, by simpa using hkey⟩)

theorem lookup?_eq_some_iff
    (once : (keys es).count k ≤ 1) :
    lookup? k es = some v ↔ (k, v) ∈ es := by
  constructor
  · intro found
    obtain ⟨e, hfind, rfl⟩ := Option.map_eq_some_iff.mp found
    obtain ⟨hkey, -⟩ := List.find?_eq_some_iff_append.mp hfind
    have hmem := List.mem_of_find?_eq_some hfind
    rwa [← beq_iff_eq.mp hkey]
  · intro mem
    rw [lookup?, find?_of_once once mem]
    rfl

theorem count_keys_perm
    (perm : es.Perm fs)
    (k : String) :
    (keys es).count k = (keys fs).count k := by
  exact (perm.map Prod.fst).count_eq k

/-- What a key stands for does not depend on where it stands. -/
theorem lookup?_perm
    (once : (keys es).count k ≤ 1)
    (perm : es.Perm fs) :
    lookup? k es = lookup? k fs := by
  have honce : (keys fs).count k ≤ 1 := by
    rwa [← count_keys_perm perm]
  ext v
  rw [lookup?_eq_some_iff once, lookup?_eq_some_iff honce, perm.mem_iff]

/-! ## What a value gives to fields -/

/-- Of the keys that are read, a table has none twice. -/
def Once (names : List String) : Value → Prop
  | .table entries => ∀ k ∈ names, (keys entries).count k ≤ 1
  | _ => True

/-- A value has the form of a section with fields of the given names; in one format
a list may not have more items than there are fields. -/
def Formed (names : List String) (d : Dialect) : Value → Prop
  | .table _ => True
  | .list vs => d = .json → vs.length ≤ names.length
  | .moment => True
  | _ => False

/-- What a value gives to one of the fields with the given names: a table by its
key, a list by its place. -/
def given? (names : List String) (name : String) : Value → Option Value
  | .table es => lookup? name es
  | .list vs => (names.idxOf? name).bind fun i => vs[i]?
  | _ => none

/-- The place of a name is the place of its value. -/
theorem lookup?_zip
    (k : String) (names : List String) (vs : List Value) :
    lookup? k (names.zip vs) = (names.idxOf? k).bind fun i => vs[i]? := by
  induction names generalizing vs with
  | nil => rfl
  | cons name rest ih =>
      cases vs with
      | nil => cases (name :: rest).idxOf? k <;> rfl
      | cons v vs =>
          rw [List.zip_cons_cons, List.idxOf?_cons]
          by_cases hname : name = k
          · subst hname
            simp [lookup?_cons_self]
          · rw [lookup?_cons_ne hname, ih, if_neg (by simpa using hname)]
            cases rest.idxOf? k <;> rfl

theorem keys_zip
    (names : List String) (vs : List Value) :
    keys (names.zip vs) = names.take vs.length := by
  induction names generalizing vs with
  | nil => simp [keys]
  | cons name rest ih =>
      cases vs with
      | nil => rfl
      | cons v vs =>
          exact congrArg (name :: ·) (ih vs)

end Value

open Value

/-- A field shows what a document gives to it, in a form that means what the field
is, and it is the default if the document gives nothing. -/
def Shows
    {β : Type}
    (means : β → Value → Prop) (initial : β)
    (given : Option Value) (b : β) : Prop :=
  match given with
  | some v => means b v
  | none => b = initial

theorem Shows.congr
    {β : Type} {means means' : β → Value → Prop}
    (same : ∀ b v, means b v ↔ means' b v)
    (initial : β) (given : Option Value) (b : β) :
    Shows means initial given b ↔ Shows means' initial given b := by
  cases given with
  | none => exact Iff.rfl
  | some v => exact same b v

theorem Shows.of_none
    {β : Type} {means : β → Value → Prop}
    {initial b : β} {given : Option Value}
    (shown : Shows means initial given b)
    (nothing : given = none) :
    b = initial := by
  rw [nothing] at shown
  exact shown

/-- Two decodings have the same outcome: the same result, or a failure each,
whatever the reasons. -/
inductive SameOutcome {ε α : Type} : Except ε α → Except ε α → Prop
  | ok
      (a : α) :
      SameOutcome (.ok a) (.ok a)
  | error
      (e e' : ε) :
      SameOutcome (.error e) (.error e')

theorem sameOutcome_iff
    {ε α : Type} {x y : Except ε α} :
    SameOutcome x y ↔ ∀ a, x = .ok a ↔ y = .ok a := by
  constructor
  · rintro (a | ⟨e, e'⟩) <;> simp
  · intro h
    cases x with
    | ok a =>
        rw [(h a).mp rfl]
        exact .ok a
    | error e =>
        cases y with
        | ok a => exact nomatch (h a).mpr rfl
        | error e' => exact .error e e'

namespace SameOutcome

variable {ε α : Type} {x y z : Except ε α}

theorem refl
    (x : Except ε α) :
    SameOutcome x x := by
  cases x with
  | ok a => exact .ok a
  | error e => exact .error e e

theorem symm
    (same : SameOutcome x y) :
    SameOutcome y x := by
  rw [sameOutcome_iff] at same ⊢
  exact fun a => (same a).symm

theorem trans
    (first : SameOutcome x y) (second : SameOutcome y z) :
    SameOutcome x z := by
  rw [sameOutcome_iff] at first second ⊢
  exact fun a => (first a).trans (second a)

end SameOutcome

/-! ## Lenses -/

/-- A field of a section, with the way in which it is read back. -/
structure Lens (α : Type) where
  {β : Type}
  name : String
  decoder : Decoder β
  put : β → α → α
  get : α → β

/-- What a lens holds of a decoded section. -/
def Lens.Holds
    {α : Type}
    (f : Lens α) (d : Dialect) (initial : α)
    (given : Option Value) (a : α) : Prop :=
  Shows (fun b v => f.decoder d v = .ok b) (f.get initial) given (f.get a)

namespace Schema

variable {α : Type} {s : Schema α} {lenses : List (Lens α)} {d : Dialect}

/-- The names of the fields, in the order of declaration. -/
def names (s : Schema α) : List String :=
  s.fields.map Prod.fst

/-- The fields of a schema are lenses: a lens gives back what was put in and keeps
it when another is put in, and the lenses together are the whole section. -/
structure HasLenses (s : Schema α) (lenses : List (Lens α)) : Prop where
  fields_eq : s.fields = lenses.map fun f => field f.name f.decoder f.put
  nodup : s.names.Nodup
  get_put : ∀ f ∈ lenses, ∀ b a, f.get (f.put b a) = b
  get_put_ne :
    ∀ f ∈ lenses, ∀ g ∈ lenses, f.name ≠ g.name →
      ∀ b a, f.get (g.put b a) = f.get a
  ext : ∀ a a', (∀ f ∈ lenses, f.get a = f.get a') → a = a'

namespace HasLenses

theorem names_eq
    (has : s.HasLenses lenses) :
    s.names = lenses.map Lens.name := by
  rw [names, has.fields_eq, List.map_map]
  rfl

theorem name_mem
    (has : s.HasLenses lenses)
    {f : Lens α}
    (mem : f ∈ lenses) :
    f.name ∈ s.names := by
  rw [has.names_eq]
  exact List.mem_map_of_mem mem

/-- Lenses with one name are one lens. -/
theorem eq_of_name
    (has : s.HasLenses lenses)
    {f g : Lens α}
    (memf : f ∈ lenses) (memg : g ∈ lenses)
    (name : f.name = g.name) :
    f = g := by
  have hnodup : (lenses.map Lens.name).Nodup := by
    rw [← has.names_eq]
    exact has.nodup
  exact List.inj_on_of_nodup_map hnodup memf memg name

/-- An entry with the name of a lens goes into the lens. -/
theorem setNamed_lens
    (has : s.HasLenses lenses)
    {f : Lens α}
    (mem : f ∈ lenses)
    (v : Value) (a : α) :
    s.setNamed d a (f.name, v) =
      match f.decoder d v with
      | .ok b => .ok (f.put b a)
      | .error e => .error e := by
  have hmem : field f.name f.decoder f.put ∈ s.fields := by
    rw [has.fields_eq]
    exact List.mem_map.mpr ⟨f, mem, rfl⟩
  have hfind :
      s.fields.find? (fun g => g.1 == f.name) =
        some (field f.name f.decoder f.put) :=
    find?_of_once (List.nodup_iff_count_le_one.mp has.nodup f.name) hmem
  simp only [setNamed, hfind, field]
  cases f.decoder d v <;> rfl

end HasLenses

/-- An entry with another name is passed over. -/
theorem setNamed_stray
    {k : String}
    (stray : k ∉ s.names)
    (v : Value) (a : α) :
    s.setNamed d a (k, v) = .ok a := by
  have hfind : s.fields.find? (fun g => g.1 == k) = none := by
    rw [List.find?_eq_none]
    intro g mem hkey
    exact stray (List.mem_map.mpr ⟨g, mem, by simpa using hkey⟩)
  simp only [setNamed, hfind]

/-- What comes of the entries of a table, on top of what is there already: each
lens holds what the table gives to it. -/
theorem foldlM_eq_ok_iff
    (has : s.HasLenses lenses)
    {es : List (String × Value)}
    (once : ∀ k ∈ s.names, (keys es).count k ≤ 1)
    {a₀ a : α} :
    es.foldlM (s.setNamed d) a₀ = .ok a ↔
      ∀ f ∈ lenses, f.Holds d a₀ (lookup? f.name es) a := by
  induction es generalizing a₀ with
  | nil =>
      constructor
      · intro h f _
        cases h
        rfl
      · intro h
        exact congrArg Except.ok (has.ext a₀ a fun f mem => (h f mem).symm)
  | cons e rest ih =>
      obtain ⟨k, v⟩ := e
      have hrest : ∀ k ∈ s.names, (keys rest).count k ≤ 1 := by
        intro k' mem
        exact (List.count_le_count_cons ..).trans (once k' mem)
      rw [List.foldlM_cons]
      by_cases hknown : k ∈ s.names
      · obtain ⟨g, memg, rfl⟩ := List.mem_map.mp (has.names_eq ▸ hknown)
        have habsent : g.name ∉ keys rest := by
          have := once g.name hknown
          simpa [keys, List.count_eq_zero] using this
        rw [has.setNamed_lens memg]
        cases hdecode : g.decoder d v with
        | error e =>
            refine iff_of_false (fun h => nomatch h) fun h => ?_
            have hg := h g memg
            rw [lookup?_cons_self] at hg
            exact nomatch hdecode.symm.trans hg
        | ok b =>
            refine (ih hrest).trans (forall₂_congr fun f memf => ?_)
            by_cases hname : f.name = g.name
            · rw [has.eq_of_name memf memg hname, lookup?_cons_self,
                lookup?_of_not_mem habsent]
              simp only [Lens.Holds, Shows, has.get_put g memg, hdecode,
                Except.ok.injEq]
              exact eq_comm
            · rw [lookup?_cons_ne (Ne.symm hname), Lens.Holds, Lens.Holds,
                has.get_put_ne f memf g memg hname]
      · rw [setNamed_stray hknown]
        refine (ih hrest).trans (forall₂_congr fun f memf => ?_)
        have hname : k ≠ f.name := by
          rintro rfl
          exact hknown (has.name_mem memf)
        rw [lookup?_cons_ne hname]

/-! ## Sections of any form -/

/-- Items set the fields as entries with the names of the fields do. -/
theorem foldlM_zip
    (nodup : s.names.Nodup)
    (vs : List Value) (a : α) :
    (s.fields.zip vs).foldlM (fun a p => p.1.2 d p.2 a) a =
      (s.names.zip vs).foldlM (s.setNamed d) a := by
  have hset :
      ∀ p ∈ s.fields.zip vs, ∀ a,
        p.1.2 d p.2 a = s.setNamed d a (p.1.1, p.2) := by
    intro p mem a
    have hmem := (List.of_mem_zip mem).1
    have hfind :=
      find?_of_once (List.nodup_iff_count_le_one.mp nodup p.1.1) hmem
    simp only [setNamed, hfind]
  rw [names, List.zip_map_left, List.foldlM_map]
  generalize s.fields.zip vs = pairs at hset ⊢
  induction pairs generalizing a with
  | nil => rfl
  | cons p rest ih =>
      simp only [List.foldlM_cons]
      rw [hset p List.mem_cons_self a]
      refine bind_congr fun a' => ?_
      exact ih a' fun q mem => hset q (List.mem_cons_of_mem p mem)

/-- A list is decoded as the table that gives its items to the first fields, and
then its length is judged. -/
theorem ofItems_eq
    (nodup : s.names.Nodup)
    (vs : List Value) :
    s.ofItems d vs =
      (s.ofEntries d (s.names.zip vs)).bind fun a =>
        if d = .json ∧ s.names.length < vs.length then
          .error (.tooManyItems vs.length)
        else .ok a := by
  have hlength : s.names.length = s.fields.length := List.length_map _
  rw [ofItems, ofEntries, foldlM_zip nodup, hlength]
  rfl

theorem ofItems_eq_ofEntries
    (nodup : s.names.Nodup)
    {vs : List Value}
    (formed : Value.Formed s.names d (.list vs)) :
    s.ofItems d vs = s.ofEntries d (s.names.zip vs) := by
  have hlong : ¬(d = .json ∧ s.names.length < vs.length) :=
    fun h => absurd (formed h.1) (Nat.not_le.mpr h.2)
  rw [ofItems_eq nodup]
  simp only [hlong, if_false]
  cases s.ofEntries d (s.names.zip vs) <;> rfl

theorem ofItems_ne_ok
    (nodup : s.names.Nodup)
    {vs : List Value}
    (malformed : ¬Value.Formed s.names d (.list vs))
    (a : α) :
    s.ofItems d vs ≠ .ok a := by
  have hlong : d = .json ∧ s.names.length < vs.length := by
    simpa [Formed] using malformed
  rw [ofItems_eq nodup]
  simp only [hlong, and_self, if_true]
  cases s.ofEntries .json (s.names.zip vs) <;> simp [Except.bind]

/-- **Decoding a section**: what comes of a value of the right form is the section
whose lenses hold what the value gives to them. -/
theorem decode_eq_ok_iff
    (has : s.HasLenses lenses)
    {v : Value}
    (once : v.Once s.names)
    {a : α} :
    s.decode d v = .ok a ↔
      v.Formed s.names d ∧
      ∀ f ∈ lenses, f.Holds d s.initial (v.given? s.names f.name) a := by
  cases v with
  | table es =>
      exact (foldlM_eq_ok_iff has once).trans (and_iff_right trivial).symm
  | list vs =>
      by_cases formed : Value.Formed s.names d (.list vs)
      · have honce : ∀ k ∈ s.names, (keys (s.names.zip vs)).count k ≤ 1 := by
          intro k _
          rw [keys_zip]
          exact List.nodup_iff_count_le_one.mp
            (has.nodup.sublist (List.take_sublist _ _)) k
        have hdecode : s.decode d (.list vs) = s.ofEntries d (s.names.zip vs) :=
          ofItems_eq_ofEntries has.nodup formed
        rw [hdecode, ofEntries, foldlM_eq_ok_iff has honce, and_iff_right formed]
        simp only [lookup?_zip, given?]
      · exact iff_of_false (ofItems_ne_ok has.nodup formed a) fun h => formed h.1
  | moment =>
      have honce : Value.Once s.names (.table []) := fun _ _ => Nat.zero_le 1
      exact (foldlM_eq_ok_iff has honce).trans (and_iff_right trivial).symm
  | null | bool b | integer i | real x | string t =>
      exact iff_of_false (fun h => nomatch h) fun h => h.1

/-- Values that give the lenses values with the same outcome have the same
outcome. -/
theorem decode_congr
    (has : s.HasLenses lenses)
    {d' : Dialect} {v w : Value}
    (oncev : v.Once s.names) (oncew : w.Once s.names)
    (formed : v.Formed s.names d ↔ w.Formed s.names d')
    (alike :
      ∀ f ∈ lenses,
        Option.Rel (fun x y => SameOutcome (f.decoder d x) (f.decoder d' y))
          (v.given? s.names f.name) (w.given? s.names f.name)) :
    SameOutcome (s.decode d v) (s.decode d' w) := by
  rw [sameOutcome_iff]
  intro a
  rw [decode_eq_ok_iff has oncev, decode_eq_ok_iff has oncew]
  refine and_congr formed (forall₂_congr fun f mem => ?_)
  have hgiven := alike f mem
  generalize v.given? s.names f.name = given at hgiven ⊢
  generalize w.given? s.names f.name = given' at hgiven ⊢
  cases hgiven with
  | some same => exact sameOutcome_iff.mp same (f.get a)
  | none => exact Iff.rfl

/-- A section that a document may give or not. -/
theorem shows_decode_iff
    (has : s.HasLenses lenses)
    {given : Option Value}
    (once : ∀ w ∈ given, w.Once s.names)
    {a : α} :
    Shows (fun a w => s.decode d w = .ok a) s.initial given a ↔
      (∀ w ∈ given, w.Formed s.names d) ∧
      ∀ f ∈ lenses,
        f.Holds d s.initial (given.bind (·.given? s.names f.name)) a := by
  cases given with
  | none =>
      constructor
      · rintro rfl
        exact ⟨by simp, fun _ _ => rfl⟩
      · intro h
        exact has.ext a s.initial h.2
  | some w =>
      refine (decode_eq_ok_iff has (once w rfl)).trans ?_
      simp

end Schema

/-! ## Single values -/

/-- Nothing at all, as it may stand beside the name of a variant. -/
def Value.Bare : Dialect → Value → Prop
  | .json, v => v = .null
  | .toml, v => v = .list [] ∨ v = .table []

/-- The ways to write a log format: its name, or a table with its name as the only
key and nothing there. -/
def LogFormat.WrittenAs (d : Dialect) (f : LogFormat) (v : Value) : Prop :=
  v = .string f.word ∨ ∃ content, v = .table [(f.word, content)] ∧ content.Bare d

namespace Decoder

variable {d : Dialect} {v : Value}

theorem count_eq_ok_iff
    {n : UInt64} :
    count d v = .ok n ↔ v = .ofNat n.toNat := by
  constructor
  · intro h
    cases v with
    | integer i =>
        simp only [count] at h
        split at h
        · next fits =>
            cases h
            have hsame : ((UInt64.ofNat i.toNat).toNat : Int) = i := by
              rw [UInt64.toNat_ofNat_of_lt' fits.2]
              exact Int.toNat_of_nonneg fits.1
            rw [ofNat, hsame]
        · cases h
    | null | bool _ | real _ | string _ | moment | list _ | table _ => cases h
  · rintro rfl
    have fits : n.toNat < UInt64.size := n.toNat_lt
    simp only [count, ofNat, Int.toNat_natCast, Int.natCast_nonneg, fits,
      and_self, if_true, UInt64.ofNat_toNat]

theorem flag_eq_ok_iff
    {b : Bool} :
    flag d v = .ok b ↔ v = .bool b := by
  cases v <;> simp [flag]

theorem string_eq_ok_iff
    {s : String} :
    string d v = .ok s ↔ v = .string s := by
  cases v <;> simp [string]

theorem variant_eq_ok_iff
    {name : String} {f : LogFormat} :
    variant name = .ok f ↔ name = f.word := by
  constructor
  · intro h
    unfold variant LogFormat.ofWord? at h
    split_ifs at h with hpretty hjson
    · cases h
      exact hpretty
    · cases h
      exact hjson
  · rintro rfl
    simp only [variant, LogFormat.ofWord?_word]

theorem emptyContent_eq_ok_iff
    {content : Value} :
    emptyContent d content = .ok () ↔ content.Bare d := by
  unfold emptyContent Bare
  split <;> simp_all

theorem logFormat_eq_ok_iff
    {f : LogFormat} :
    logFormat d v = .ok f ↔ f.WrittenAs d v := by
  cases v with
  | string s =>
      rw [logFormat, variant_eq_ok_iff]
      simp [LogFormat.WrittenAs]
  | table entries =>
      rcases entries with _ | ⟨⟨name, content⟩, _ | ⟨e, rest⟩⟩
      · cases d <;> simp [logFormat, LogFormat.WrittenAs]
      · have hdecode :
            logFormat d (.table [(name, content)]) = .ok f ↔
              variant name = .ok f ∧ emptyContent d content = .ok () := by
          rw [logFormat]
          cases variant name <;> cases emptyContent d content <;>
            simp [bind, Except.bind]
        rw [hdecode, variant_eq_ok_iff, emptyContent_eq_ok_iff]
        simp [LogFormat.WrittenAs]
      · cases d <;> simp [logFormat, LogFormat.WrittenAs]
  | null | bool _ | integer _ | real _ | moment | list _ =>
      cases d <;> simp [logFormat, LogFormat.WrittenAs]

end Decoder

/-! ## The sections -/

namespace Settings

open Schema

/-- The lenses of the settings of connections. -/
def connectionLenses : List (Lens ConnectionSettings) :=
  [ { name := "read_size"
      decoder := Decoder.count
      put := fun n s => { s with readSize := n }
      get := ConnectionSettings.readSize },
    { name := "preview_len"
      decoder := Decoder.count
      put := fun n s => { s with previewLength := n }
      get := ConnectionSettings.previewLength } ]

/-- The lenses of the settings of the listener. -/
def listenerLenses : List (Lens ListenerSettings) :=
  [ { name := "bind_address"
      decoder := Decoder.string
      put := fun a s => { s with bindAddress := a }
      get := ListenerSettings.bindAddress },
    { name := "max_connections"
      decoder := Decoder.count
      put := fun n s => { s with maxConnections := n }
      get := ListenerSettings.maxConnections } ]

/-- The lenses of the settings of reporting. -/
def reportLenses : List (Lens ReportSettings) :=
  [ { name := "log_level"
      decoder := Decoder.string
      put := fun l s => { s with logLevel := l }
      get := ReportSettings.logLevel },
    { name := "log_format"
      decoder := Decoder.logFormat
      put := fun f s => { s with logFormat := f }
      get := ReportSettings.logFormat },
    { name := "metrics_enabled"
      decoder := Decoder.flag
      put := fun b s => { s with metricsEnabled := b }
      get := ReportSettings.metricsEnabled },
    { name := "metrics_address"
      decoder := Decoder.string
      put := fun a s => { s with metricsAddress := a }
      get := ReportSettings.metricsAddress } ]

/-- The lenses of all settings are the sections. -/
def sectionLenses : List (Lens Settings) :=
  [ { name := "connection"
      decoder := connectionSchema.decode
      put := fun c s => { s with connection := c }
      get := Settings.connection },
    { name := "listener"
      decoder := listenerSchema.decode
      put := fun l s => { s with listener := l }
      get := Settings.listener },
    { name := "observability"
      decoder := reportSchema.decode
      put := fun r s => { s with report := r }
      get := Settings.report } ]

theorem connectionSchema_hasLenses :
    connectionSchema.HasLenses connectionLenses where
  fields_eq := rfl
  nodup := by decide
  get_put := by simp [connectionLenses]
  get_put_ne := by simp [connectionLenses]
  ext := by
    rintro ⟨⟩ ⟨⟩
    simp [connectionLenses]

theorem listenerSchema_hasLenses :
    listenerSchema.HasLenses listenerLenses where
  fields_eq := rfl
  nodup := by decide
  get_put := by simp [listenerLenses]
  get_put_ne := by simp [listenerLenses]
  ext := by
    rintro ⟨⟩ ⟨⟩
    simp [listenerLenses]

theorem reportSchema_hasLenses :
    reportSchema.HasLenses reportLenses where
  fields_eq := rfl
  nodup := by decide
  get_put := by simp [reportLenses]
  get_put_ne := by simp [reportLenses]
  ext := by
    rintro ⟨⟩ ⟨⟩
    simp [reportLenses]

theorem schema_hasLenses :
    schema.HasLenses sectionLenses where
  fields_eq := rfl
  nodup := by decide
  get_put := by simp [sectionLenses]
  get_put_ne := by simp [sectionLenses]
  ext := by
    rintro ⟨⟩ ⟨⟩
    simp [sectionLenses]

/-- The sections of a document and the fields of each, in the order in which a list
gives them. -/
def sections : List (String × List String) :=
  [ ("connection", ["read_size", "preview_len"]),
    ("listener", ["bind_address", "max_connections"]),
    ("observability",
      ["log_level", "log_format", "metrics_enabled", "metrics_address"]) ]

/-- The decoder of a section is that of a schema with just its fields. -/
theorem exists_schema
    {f : Lens Settings}
    (mem : f ∈ sectionLenses)
    {fields : List String}
    (listed : (f.name, fields) ∈ sections) :
    ∃ (s : Schema f.β) (lenses : List (Lens f.β)),
      s.HasLenses lenses ∧ s.names = fields ∧ f.decoder = s.decode := by
  simp only [sectionLenses, List.mem_cons, List.not_mem_nil, or_false] at mem
  rcases mem with rfl | rfl | rfl
  · have hfields : fields = ["read_size", "preview_len"] := by
      simpa [sections] using listed
    exact ⟨_, _, connectionSchema_hasLenses, hfields.symm, rfl⟩
  · have hfields : fields = ["bind_address", "max_connections"] := by
      simpa [sections] using listed
    exact ⟨_, _, listenerSchema_hasLenses, hfields.symm, rfl⟩
  · have hfields : fields =
        ["log_level", "log_format", "metrics_enabled", "metrics_address"] := by
      simpa [sections] using listed
    exact ⟨_, _, reportSchema_hasLenses, hfields.symm, rfl⟩

/-- The names of the sections. -/
def sectionNames : List String :=
  sections.map Prod.fst

/-- The fields of a section. -/
def fieldsOf (name : String) : List String :=
  (sections.lookup name).getD []

/-- What a document gives to a field of a section. -/
def at? (name field : String) (v : Value) : Option Value :=
  (v.given? sectionNames name).bind (·.given? (fieldsOf name) field)

/-- Something holds of a document as a whole, for the names of the sections, and of
each section that it gives, for the names of its fields. -/
def Everywhere (P : List String → Value → Prop) (v : Value) : Prop :=
  P sectionNames v ∧
  ∀ p ∈ sections, ∀ w ∈ v.given? sectionNames p.1, P p.2 w

/-- No key that is read stands twice, neither in the document nor in a section. -/
def Once (v : Value) : Prop :=
  Everywhere Value.Once v

/-- The document and each section that it gives are of the right form. -/
def Formed (d : Dialect) (v : Value) : Prop :=
  Everywhere (fun names w => w.Formed names d) v

theorem everywhere_iff
    {P : List String → Value → Prop} {v : Value} :
    Everywhere P v ↔
      P schema.names v ∧
      (∀ w ∈ v.given? schema.names "connection",
        P connectionSchema.names w) ∧
      (∀ w ∈ v.given? schema.names "listener", P listenerSchema.names w) ∧
      (∀ w ∈ v.given? schema.names "observability",
        P reportSchema.names w) := by
  refine and_congr Iff.rfl ?_
  simp only [sections, List.mem_cons, forall_eq_or_imp, List.not_mem_nil,
    false_imp_iff, implies_true, and_true]
  exact Iff.rfl

/-- Settings are read off a document: each field is what the document has at its
path, and its default if the document has nothing there. -/
structure ReadOff (d : Dialect) (v : Value) (s : Settings) : Prop where
  readSize :
    Shows (fun n w => w = .ofNat n.toNat) 1500
      (at? "connection" "read_size" v)
      s.connection.readSize
  previewLength :
    Shows (fun n w => w = .ofNat n.toNat) 30
      (at? "connection" "preview_len" v)
      s.connection.previewLength
  bindAddress :
    Shows (fun a w => w = .string a) "127.0.0.1:7000"
      (at? "listener" "bind_address" v)
      s.listener.bindAddress
  maxConnections :
    Shows (fun n w => w = .ofNat n.toNat) 1024
      (at? "listener" "max_connections" v)
      s.listener.maxConnections
  logLevel :
    Shows (fun l w => w = .string l) "socket_conn=debug"
      (at? "observability" "log_level" v)
      s.report.logLevel
  logFormat :
    Shows (fun f w => f.WrittenAs d w) .pretty
      (at? "observability" "log_format" v)
      s.report.logFormat
  metricsEnabled :
    Shows (fun b w => w = .bool b) false
      (at? "observability" "metrics_enabled" v)
      s.report.metricsEnabled
  metricsAddress :
    Shows (fun a w => w = .string a) "127.0.0.1:9100"
      (at? "observability" "metrics_address" v)
      s.report.metricsAddress

section Sections

variable {d : Dialect} {v : Value}

theorem shows_connection_iff
    (once :
      ∀ w ∈ v.given? schema.names "connection",
        w.Once connectionSchema.names)
    {c : ConnectionSettings} :
    Shows (fun c w => connectionSchema.decode d w = .ok c) {}
        (v.given? schema.names "connection") c ↔
      (∀ w ∈ v.given? schema.names "connection",
        w.Formed connectionSchema.names d) ∧
      Shows (fun n w => w = .ofNat n.toNat) 1500
        (at? "connection" "read_size" v) c.readSize ∧
      Shows (fun n w => w = .ofNat n.toNat) 30
        (at? "connection" "preview_len" v)
        c.previewLength := by
  refine (shows_decode_iff connectionSchema_hasLenses once).trans
    (and_congr_right' ?_)
  simp only [connectionLenses, List.mem_cons, forall_eq_or_imp,
    List.not_mem_nil, false_imp_iff, implies_true, and_true]
  exact and_congr
    (Shows.congr (fun _ _ => Decoder.count_eq_ok_iff (d := d)) _ _ _)
    (Shows.congr (fun _ _ => Decoder.count_eq_ok_iff (d := d)) _ _ _)

theorem shows_listener_iff
    (once :
      ∀ w ∈ v.given? schema.names "listener",
        w.Once listenerSchema.names)
    {l : ListenerSettings} :
    Shows (fun l w => listenerSchema.decode d w = .ok l) {}
        (v.given? schema.names "listener") l ↔
      (∀ w ∈ v.given? schema.names "listener",
        w.Formed listenerSchema.names d) ∧
      Shows (fun a w => w = .string a) "127.0.0.1:7000"
        (at? "listener" "bind_address" v) l.bindAddress ∧
      Shows (fun n w => w = .ofNat n.toNat) 1024
        (at? "listener" "max_connections" v)
        l.maxConnections := by
  refine (shows_decode_iff listenerSchema_hasLenses once).trans
    (and_congr_right' ?_)
  simp only [listenerLenses, List.mem_cons, forall_eq_or_imp,
    List.not_mem_nil, false_imp_iff, implies_true, and_true]
  exact and_congr
    (Shows.congr (fun _ _ => Decoder.string_eq_ok_iff (d := d)) _ _ _)
    (Shows.congr (fun _ _ => Decoder.count_eq_ok_iff (d := d)) _ _ _)

theorem shows_report_iff
    (once :
      ∀ w ∈ v.given? schema.names "observability",
        w.Once reportSchema.names)
    {r : ReportSettings} :
    Shows (fun r w => reportSchema.decode d w = .ok r) {}
        (v.given? schema.names "observability") r ↔
      (∀ w ∈ v.given? schema.names "observability",
        w.Formed reportSchema.names d) ∧
      Shows (fun l w => w = .string l) "socket_conn=debug"
        (at? "observability" "log_level" v) r.logLevel ∧
      Shows (fun f w => f.WrittenAs d w) .pretty
        (at? "observability" "log_format" v) r.logFormat ∧
      Shows (fun b w => w = .bool b) false
        (at? "observability" "metrics_enabled" v)
        r.metricsEnabled ∧
      Shows (fun a w => w = .string a) "127.0.0.1:9100"
        (at? "observability" "metrics_address" v)
        r.metricsAddress := by
  refine (shows_decode_iff reportSchema_hasLenses once).trans
    (and_congr_right' ?_)
  simp only [reportLenses, List.mem_cons, forall_eq_or_imp,
    List.not_mem_nil, false_imp_iff, implies_true, and_true]
  exact and_congr
    (Shows.congr (fun _ _ => Decoder.string_eq_ok_iff (d := d)) _ _ _)
    (and_congr
      (Shows.congr (fun _ _ => Decoder.logFormat_eq_ok_iff (d := d)) _ _ _)
      (and_congr
        (Shows.congr (fun _ _ => Decoder.flag_eq_ok_iff (d := d)) _ _ _)
        (Shows.congr (fun _ _ => Decoder.string_eq_ok_iff (d := d)) _ _ _)))

/-- **Decoding a document**, in either format: settings come of it exactly if it
and its sections are of the right form and the settings are read off it. -/
theorem decode_eq_ok_iff
    {s : Settings}
    (once : Once v) :
    decode d v = .ok s ↔ Formed d v ∧ ReadOff d v s := by
  obtain ⟨onceRoot, onceConnection, onceListener, onceReport⟩ :=
    everywhere_iff.mp once
  have hroot :
      decode d v = .ok s ↔
        v.Formed schema.names d ∧
        Shows (fun c w => connectionSchema.decode d w = .ok c) {}
          (v.given? schema.names "connection") s.connection ∧
        Shows (fun l w => listenerSchema.decode d w = .ok l) {}
          (v.given? schema.names "listener") s.listener ∧
        Shows (fun r w => reportSchema.decode d w = .ok r) {}
          (v.given? schema.names "observability") s.report := by
    refine (Schema.decode_eq_ok_iff schema_hasLenses onceRoot).trans ?_
    simp only [sectionLenses, List.mem_cons, forall_eq_or_imp,
      List.not_mem_nil, false_imp_iff, implies_true, and_true]
    exact Iff.rfl
  rw [hroot, shows_connection_iff onceConnection,
    shows_listener_iff onceListener, shows_report_iff onceReport,
    Formed, everywhere_iff]
  constructor
  · rintro ⟨hform, ⟨hconnection, hread, hpreview⟩, ⟨hlistener, hbind, hmax⟩,
      hreport, hlevel, hformat, henabled, hmetrics⟩
    exact ⟨⟨hform, hconnection, hlistener, hreport⟩,
      ⟨hread, hpreview, hbind, hmax, hlevel, hformat, henabled, hmetrics⟩⟩
  · rintro ⟨⟨hform, hconnection, hlistener, hreport⟩,
      ⟨hread, hpreview, hbind, hmax, hlevel, hformat, henabled, hmetrics⟩⟩
    exact ⟨hform, ⟨hconnection, hread, hpreview⟩, ⟨hlistener, hbind, hmax⟩,
      hreport, hlevel, hformat, henabled, hmetrics⟩

end Sections

end Settings

end StreamServer
