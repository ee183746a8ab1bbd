import Mathlib
import StreamServer.Proofs.Pieces
import StreamServer.Proofs.ReaderSteps
import StreamServer.Settings.Validation

/-!
# The grammar of socket addresses

The texts that write a socket address, as a grammar: four octets and a port, or the
groups of an address of the longer kind, with or without a scope, in brackets and
a port.  Of the groups, one double colon may stand for some that are left out, at
least one, and the last two may be written as four octets.

The reader of addresses goes another way.  It cuts a text at brackets, colons and
points, and judges what is between them.  It accepts the texts of the grammar and
no others: what it accepts is put together again from its pieces, and of a text of
the grammar the pieces are those that it was made of, for no part has a character
at which it could be cut.

So validation reports the address to listen at exactly if it is not in the grammar,
and the address of the counters exactly if that is not and counters are published.
-/

namespace StreamServer

/-! ## Digits -/

namespace Digits

/-- A digit of a number in base sixteen. -/
def IsHex (c : Char) : Prop :=
  c.isDigit = true ∨ ('a' ≤ c ∧ c ≤ 'f') ∨ ('A' ≤ c ∧ c ≤ 'F')

instance : DecidablePred IsHex :=
  fun c => inferInstanceAs
    (Decidable (c.isDigit = true ∨ ('a' ≤ c ∧ c ≤ 'f') ∨ ('A' ≤ c ∧ c ≤ 'F')))

theorem isDigit_iff
    {base : Nat} {c : Char} :
    isDigit base c = true ↔ ∃ d, value? c = some d ∧ d < base := by
  simp [isDigit, Option.any_eq_true]

theorem isDigit_ten_iff
    {c : Char} :
    isDigit 10 c = true ↔ c.isDigit = true := by
  refine ⟨fun h => ?_, isDigit_of_isDigit⟩
  obtain ⟨d, hvalue, hlt⟩ := isDigit_iff.mp h
  unfold value? at hvalue
  split_ifs at hvalue with hdigit hlower hupper
  · simpa [Char.isDigit, Char.le_def] using hdigit
  · cases hvalue
    omega
  · cases hvalue
    omega

theorem isDigit_sixteen_iff
    {c : Char} :
    isDigit 16 c = true ↔ IsHex c := by
  constructor
  · intro h
    obtain ⟨d, hvalue, -⟩ := isDigit_iff.mp h
    unfold value? at hvalue
    split_ifs at hvalue with hdigit hlower hupper
    · exact Or.inl (by simpa [Char.isDigit, Char.le_def] using hdigit)
    · exact Or.inr (Or.inl (by simpa using hlower))
    · exact Or.inr (Or.inr (by simpa using hupper))
  · rintro (hdigit | ⟨hlow, hhigh⟩ | ⟨hlow, hhigh⟩)
    · obtain ⟨hvalue, hlt⟩ := value?_of_isDigit hdigit
      exact isDigit_iff.mpr ⟨_, hvalue, by omega⟩
    · have hcode : 97 ≤ c.toNat ∧ c.toNat ≤ 102 := ⟨hlow, hhigh⟩
      have hdigit : ¬ c ≤ '9' := fun h => by
        have : c.toNat ≤ 57 := h
        omega
      refine isDigit_iff.mpr ⟨c.toNat - 97 + 10, ?_, by omega⟩
      simp [value?, hdigit, hlow, hhigh]
    · have hcode : 65 ≤ c.toNat ∧ c.toNat ≤ 70 := ⟨hlow, hhigh⟩
      have hdigit : ¬ c ≤ '9' := fun h => by
        have : c.toNat ≤ 57 := h
        omega
      have hlower : ¬ 'a' ≤ c := fun h => by
        have : 97 ≤ c.toNat := h
        omega
      refine isDigit_iff.mpr ⟨c.toNat - 65 + 10, ?_, by omega⟩
      simp [value?, hdigit, hlower, hlow, hhigh]

/-- A number is read exactly if there are digits only. -/
theorem readFrom?_isSome_iff
    {base : Nat} {ds : List Char} {value : Nat} :
    (readFrom? base value ds).isSome ↔
      ∀ c ∈ ds, isDigit base c = true := by
  induction ds generalizing value with
  | nil => simp [readFrom?]
  | cons c rest ih =>
      simp only [readFrom?, List.forall_mem_cons, isDigit]
      cases value? c with
      | none => simp
      | some d =>
          by_cases hlt : d < base
          · simp [hlt, ih, isDigit]
          · simp [hlt]

theorem read?_isSome_iff
    {base : Nat} {ds : List Char} :
    (read? base ds).isSome ↔
      ds ≠ [] ∧ ∀ c ∈ ds, isDigit base c = true := by
  cases ds with
  | nil => simp [read?]
  | cons c rest =>
      rw [read?, readFrom?_isSome_iff]
      · simp
      · simp

/-- The number that decimal digits write. -/
theorem read?_of_isDigit
    {ds : List Char}
    (some_digit : ds ≠ [])
    (digits : ∀ c ∈ ds, c.isDigit = true) :
    read? 10 ds = some (Nat.ofDigitChars 10 ds 0) := by
  rw [read?.eq_2 _ _ some_digit, readFrom?_of_isDigit digits]

end Digits

namespace SocketAddress

/-! ## The grammar -/

/-- Decimal digits of a number below a limit; there may be zeros before it. -/
def IsNumber (limit : Nat) (ds : List Char) : Prop :=
  ds ≠ [] ∧ (∀ c ∈ ds, c.isDigit = true) ∧ Nat.ofDigitChars 10 ds 0 < limit

/-- At most three digits of a number up to 255, with no zero before others. -/
def IsOctet (ds : List Char) : Prop :=
  IsNumber 256 ds ∧ ds.length ≤ 3 ∧ (ds.head? = some '0' → ds = ['0'])

/-- A number of a port: one up to 65535. -/
def IsPort (ds : List Char) : Prop :=
  IsNumber 65536 ds

/-- A number of a scope. -/
def IsScope (ds : List Char) : Prop :=
  IsNumber (2 ^ 32) ds

/-- One to four hexadecimal digits. -/
def IsGroup (ds : List Char) : Prop :=
  ds ≠ [] ∧ ds.length ≤ 4 ∧ ∀ c ∈ ds, Digits.IsHex c

/-- Four octets with points between them. -/
inductive Dotted : List Char → Prop
  | octets
      {a b c d : List Char}
      (ha : IsOctet a) (hb : IsOctet b) (hc : IsOctet c) (hd : IsOctet d) :
      Dotted (a ++ '.' :: (b ++ '.' :: (c ++ '.' :: d)))

/-- A number of groups, one or more, with colons between them.  The last two
may be written as four octets, if that is `allowed`. -/
inductive Groups (allowed : Bool) : Nat → List Char → Prop
  | one
      {g : List Char}
      (hg : IsGroup g) :
      Groups allowed 1 g
  | octets
      {q : List Char}
      (hallowed : allowed = true)
      (hq : Dotted q) :
      Groups allowed 2 q
  | more
      {n : Nat} {g rest : List Char}
      (hg : IsGroup g)
      (hrest : Groups allowed n rest) :
      Groups allowed (n + 1) (g ++ ':' :: rest)

/-- The groups on one side of a double colon, where there may be none. -/
inductive Side (allowed : Bool) : Nat → List Char → Prop
  | none : Side allowed 0 []
  | groups
      {n : Nat} {cs : List Char}
      (hcs : Groups allowed n cs) :
      Side allowed n cs

/-- The eight groups of an address, or fewer and one double colon. -/
inductive Host : List Char → Prop
  | full
      {cs : List Char}
      (hcs : Groups true 8 cs) :
      Host cs
  | gap
      {m n : Nat} {before after : List Char}
      (hbefore : Side false m before)
      (hafter : Side true n after)
      (hfewer : m + n < 8) :
      Host (before ++ ':' :: ':' :: after)

/-- The texts that write a socket address. -/
inductive Written : List Char → Prop
  | octets
      {host port : List Char}
      (hhost : Dotted host)
      (hport : IsPort port) :
      Written (host ++ ':' :: port)
  | groups
      {host port : List Char}
      (hhost : Host host)
      (hport : IsPort port) :
      Written ('[' :: (host ++ ']' :: ':' :: port))
  | inScope
      {host scope port : List Char}
      (hhost : Host host)
      (hscope : IsScope scope)
      (hport : IsPort port) :
      Written ('[' :: (host ++ '%' :: (scope ++ ']' :: ':' :: port)))

/-! ## Numbers, octets and groups -/

theorem decimalBelow?_isSome_iff
    {limit : Nat} {ds : List Char} :
    (decimalBelow? limit ds).isSome ↔ IsNumber limit ds := by
  by_cases hdigits : ds ≠ [] ∧ ∀ c ∈ ds, c.isDigit = true
  · rw [decimalBelow?, Digits.read?_of_isDigit hdigits.1 hdigits.2]
    by_cases hlt : Nat.ofDigitChars 10 ds 0 < limit
    · simpa [hlt] using ⟨hdigits.1, hdigits.2, hlt⟩
    · simpa [hlt] using fun h : IsNumber limit ds => hlt h.2.2
  · have hnone : Digits.read? 10 ds = none := by
      rw [← Option.not_isSome_iff_eq_none, Digits.read?_isSome_iff]
      simpa [Digits.isDigit_ten_iff] using hdigits
    rw [decimalBelow?, hnone]
    simpa using fun h : IsNumber limit ds => hdigits ⟨h.1, h.2.1⟩

theorem port?_isSome_iff
    {ds : List Char} :
    (port? ds).isSome ↔ IsPort ds := by
  rw [port?, Option.isSome_map]
  exact decimalBelow?_isSome_iff

theorem scope?_isSome_iff
    {ds : List Char} :
    (scope? ds).isSome ↔ IsScope ds := by
  rw [scope?, Option.isSome_map]
  exact decimalBelow?_isSome_iff

/-- A zero that is not alone is one before other digits. -/
theorem zero_alone_iff
    {ds : List Char} :
    (ds.head? = some '0' → ds = ['0']) ↔
      ¬ (ds.head? = some '0' ∧ 1 < ds.length) := by
  cases ds with
  | nil => simp
  | cons c rest =>
      cases rest with
      | nil => simp
      | cons d more => simp

theorem octet?_isSome_iff
    {ds : List Char} :
    (octet? ds).isSome ↔ IsOctet ds := by
  unfold octet? IsOctet
  rw [zero_alone_iff]
  split_ifs with hlong hzero
  · simp [Nat.not_le.mpr hlong]
  · simp [hzero]
  · rw [Option.isSome_map]
    simp only [hzero, not_false_eq_true, and_true,
      Nat.le_of_not_lt hlong]
    exact decimalBelow?_isSome_iff

theorem group?_isSome_iff
    {ds : List Char} :
    (group? ds).isSome ↔ IsGroup ds := by
  unfold group? IsGroup
  split
  · next hlong =>
      simp [Nat.not_le.mpr hlong]
  · next hshort =>
      rw [Option.isSome_map, Digits.read?_isSome_iff]
      simp [Digits.isDigit_sixteen_iff, Nat.le_of_not_lt hshort]

theorem group?_or_not
    (ds : List Char) :
    (∃ g, group? ds = some g ∧ IsGroup ds) ∨
      (group? ds = none ∧ ¬ IsGroup ds) := by
  rw [← group?_isSome_iff]
  cases group? ds <;> simp

/-! ## Four octets -/

theorem IsNumber.not_mem
    {limit : Nat} {c : Char} {ds : List Char}
    (number : IsNumber limit ds)
    (other : c.isDigit = false) :
    c ∉ ds := by
  intro hmem
  rw [number.2.1 c hmem] at other
  cases other

/-- Four octets are read exactly if they are written. -/
theorem octets?_isSome_iff
    {cs : List Char} :
    (octets? cs).isSome ↔ Dotted cs := by
  constructor
  · intro hread
    unfold octets? at hread
    simp only at hread
    split_ifs at hread with hfour
    · rw [isSome_mapM_iff] at hread
      match hps : pieces '.' cs, hfour with
      | [a, b, c, d], _ =>
          rw [hps] at hread
          simp only [List.forall_mem_cons, octet?_isSome_iff] at hread
          obtain ⟨ha, hb, hc, hd, -⟩ := hread
          have hcs : a ++ '.' :: (b ++ '.' :: (c ++ '.' :: d)) = cs := by
            rw [← intercalate_pieces '.' cs, hps]
            simp [List.intercalate_cons_cons]
          rw [← hcs]
          exact Dotted.octets ha hb hc hd
    · cases hread
  · rintro ⟨ha, hb, hc, hd⟩
    have hpoint : '.'.isDigit = false := rfl
    unfold octets?
    rw [pieces_append_cons (ha.1.not_mem hpoint),
      pieces_append_cons (hb.1.not_mem hpoint),
      pieces_append_cons (hc.1.not_mem hpoint),
      pieces_of_not_mem (hd.1.not_mem hpoint)]
    rw [if_pos (by rfl), isSome_mapM_iff]
    simp only [List.forall_mem_cons, octet?_isSome_iff]
    exact ⟨ha, hb, hc, hd, List.forall_mem_nil _⟩

theorem octets?_or_not
    (cs : List Char) :
    (∃ os, octets? cs = some os ∧ Dotted cs) ∨
      (octets? cs = none ∧ ¬ Dotted cs) := by
  rw [← octets?_isSome_iff]
  cases octets? cs <;> simp

/-- Four octets fill two groups. -/
theorem length_pairUp_of_octets?
    {cs : List Char} {os : List UInt8}
    (read : octets? cs = some os) :
    (pairUp os).length = 2 := by
  have hfour : os.length = 4 := by
    simp only [octets?] at read
    split_ifs at read with hps
    rw [length_of_mapM read, hps]
  match os, hfour with
  | [a, b, c, d], _ => rfl

/-! ## No part has a character at which it is cut -/

theorem Dotted.not_mem
    {c : Char} {cs : List Char}
    (dotted : Dotted cs)
    (other : c.isDigit = false)
    (point : c ≠ '.') :
    c ∉ cs := by
  obtain ⟨ha, hb, hc, hd⟩ := dotted
  simp [ha.1.not_mem other, hb.1.not_mem other, hc.1.not_mem other,
    hd.1.not_mem other, point]

theorem IsGroup.not_mem
    {c : Char} {ds : List Char}
    (group : IsGroup ds)
    (other : ¬ Digits.IsHex c) :
    c ∉ ds :=
  fun hmem => other (group.2.2 c hmem)

/-- Four octets are not hexadecimal digits. -/
theorem Dotted.not_isGroup
    {cs : List Char}
    (dotted : Dotted cs) :
    ¬ IsGroup cs := by
  intro group
  have hpoint := group.not_mem (show ¬ Digits.IsHex '.' by decide)
  obtain ⟨-, -, -, -⟩ := dotted
  simp at hpoint

section

variable {allowed : Bool} {m n : Nat} {c : Char} {cs : List Char}

theorem Groups.not_mem
    (groups : Groups allowed n cs)
    (other : ¬ Digits.IsHex c)
    (colon : c ≠ ':')
    (point : c ≠ '.') :
    c ∉ cs := by
  have hdigit : c.isDigit = false :=
    Bool.eq_false_iff.mpr fun h => other (Or.inl h)
  induction groups with
  | one hg => exact hg.not_mem other
  | octets _ hq => exact hq.not_mem hdigit point
  | more hg _ ih => simp [hg.not_mem other, colon, ih]

theorem Side.not_mem
    (side : Side allowed n cs)
    (other : ¬ Digits.IsHex c)
    (colon : c ≠ ':')
    (point : c ≠ '.') :
    c ∉ cs := by
  cases side with
  | none => exact List.not_mem_nil
  | groups hcs => exact hcs.not_mem other colon point

theorem Host.not_mem
    (host : Host cs)
    (other : ¬ Digits.IsHex c)
    (colon : c ≠ ':')
    (point : c ≠ '.') :
    c ∉ cs := by
  cases host with
  | full hcs => exact hcs.not_mem other colon point
  | gap hbefore hafter _ =>
      simp [hbefore.not_mem other colon point, colon,
        hafter.not_mem other colon point]

/-- Groups do not begin with a colon. -/
theorem Groups.begins
    (groups : Groups allowed n cs) :
    ∃ d rest, cs = d :: rest ∧ d ≠ ':' := by
  have hcolon : ¬ Digits.IsHex ':' := by decide
  have hpart : ∀ {p : List Char}, p ≠ [] → ':' ∉ p →
      ∃ d rest, p = d :: rest ∧ d ≠ ':' := by
    intro p hne habsent
    obtain ⟨d, rest, hcons⟩ := List.exists_cons_of_ne_nil hne
    rw [hcons] at habsent
    exact ⟨d, rest, hcons, Ne.symm (List.ne_of_not_mem_cons habsent)⟩
  cases groups with
  | one hg => exact hpart hg.1 (hg.not_mem hcolon)
  | octets _ hq =>
      obtain ⟨ha, -, -, -⟩ := hq
      obtain ⟨d, rest, hcons, hne⟩ :=
        hpart ha.1.1 (ha.1.not_mem (show ':'.isDigit = false from rfl))
      exact ⟨d, _, by rw [hcons]; rfl, hne⟩
  | more hg _ =>
      obtain ⟨d, rest, hcons, hne⟩ := hpart hg.1 (hg.not_mem hcolon)
      exact ⟨d, _, by rw [hcons]; rfl, hne⟩

/-! ## Groups between colons -/

/-- A reader of pieces that counts them as groups, the last one as two if it is
four octets and that is `allowed`. -/
structure Counts
    (allowed : Bool)
    (read : List (List Char) → Option (List UInt16)) : Prop where
  one
    (p : List Char) (n : Nat) :
    (read [p]).map List.length = some n ↔
      (n = 1 ∧ IsGroup p) ∨ (n = 2 ∧ allowed = true ∧ Dotted p)
  more
    (p q : List Char) (ps : List (List Char)) (n : Nat) :
    (read (p :: q :: ps)).map List.length = some n ↔
      ∃ m, n = m + 1 ∧ IsGroup p ∧
        (read (q :: ps)).map List.length = some m

variable {read : List (List Char) → Option (List UInt16)}

/-- The pieces that are counted make up groups. -/
theorem Counts.groups_of_pieces
    (counts : Counts allowed read)
    {p : List Char} {ps : List (List Char)}
    (count : (read (p :: ps)).map List.length = some n) :
    Groups allowed n ([':'].intercalate (p :: ps)) := by
  induction ps generalizing p n with
  | nil =>
      rw [List.intercalate_singleton]
      rcases (counts.one p n).mp count with
        ⟨rfl, hp⟩ | ⟨rfl, hallowed, hp⟩
      · exact Groups.one hp
      · exact Groups.octets hallowed hp
  | cons q rest ih =>
      obtain ⟨m, rfl, hp, hrest⟩ := (counts.more p q rest n).mp count
      rw [List.intercalate_cons_cons, List.append_assoc]
      exact Groups.more hp (ih hrest)

/-- The pieces of groups are counted. -/
theorem Counts.pieces_of_groups
    (counts : Counts allowed read)
    (groups : Groups allowed n cs) :
    (read (pieces ':' cs)).map List.length = some n := by
  have hcolon : ¬ Digits.IsHex ':' := by decide
  induction groups with
  | one hg =>
      rw [pieces_of_not_mem (hg.not_mem hcolon)]
      exact (counts.one _ _).mpr (Or.inl ⟨rfl, hg⟩)
  | octets hallowed hq =>
      rw [pieces_of_not_mem (hq.not_mem (by decide) (by decide))]
      exact (counts.one _ _).mpr (Or.inr ⟨rfl, hallowed, hq⟩)
  | @more n g rest hg hrest ih =>
      rw [pieces_append_cons (hg.not_mem hcolon)]
      obtain ⟨q, qs, hqs⟩ :=
        List.exists_cons_of_ne_nil (pieces_ne_nil ':' rest)
      rw [hqs] at ih ⊢
      exact (counts.more _ _ _ _).mpr ⟨n, rfl, hg, ih⟩

theorem Counts.pieces_iff
    (counts : Counts allowed read) :
    (read (pieces ':' cs)).map List.length = some n ↔
      Groups allowed n cs := by
  refine ⟨fun count => ?_, counts.pieces_of_groups⟩
  obtain ⟨p, ps, hps⟩ :=
    List.exists_cons_of_ne_nil (pieces_ne_nil ':' cs)
  rw [← intercalate_pieces ':' cs, hps]
  exact counts.groups_of_pieces (hps ▸ count)

/-- On one side of a double colon there may be nothing to count. -/
theorem Counts.side_iff
    (counts : Counts allowed read) :
    (if cs = [] then some [] else read (pieces ':' cs)).map List.length =
        some n ↔
      Side allowed n cs := by
  split
  · next hnil =>
      subst hnil
      constructor
      · rintro h
        cases h
        exact Side.none
      · rintro (- | hcs)
        · rfl
        · obtain ⟨_, _, hcons, -⟩ := hcs.begins
          cases hcons
  · next hne =>
      rw [counts.pieces_iff]
      constructor
      · exact Side.groups
      · rintro (- | hcs)
        · exact absurd rfl hne
        · exact hcs

/-- The reader of all groups, and of those after a double colon.  A piece that is a
group is not read as octets, and is never in dotted form. -/
theorem groupsOfPieces?_counts :
    Counts true groupsOfPieces? where
  one p n := by
    rw [groupsOfPieces?]
    rcases group?_or_not p with ⟨g, hg, hp⟩ | ⟨hg, hp⟩
    · have hdotted : ¬ Dotted p := fun h => h.not_isGroup hp
      simp [hg, hp, hdotted, eq_comm]
    · rcases octets?_or_not p with ⟨os, hos, hq⟩ | ⟨hos, hq⟩
      · simp [hg, hp, hos, hq, length_pairUp_of_octets? hos, eq_comm]
      · simp [hg, hp, hos, hq]
  more p q ps n := by
    rw [groupsOfPieces?]
    · generalize groupsOfPieces? (q :: ps) = rest
      rcases group?_or_not p with ⟨g, hg, hp⟩ | ⟨hg, hp⟩
      · cases rest <;> simp [hg, hp, eq_comm]
      · simp [hg, hp]
    · exact List.cons_ne_nil q ps

/-- The reader of the groups before a double colon. -/
theorem mapM_group?_counts :
    Counts false (List.mapM group?) where
  one p n := by
    rw [List.mapM_cons]
    rcases group?_or_not p with ⟨g, hg, hp⟩ | ⟨hg, hp⟩
    · simp [hg, hp, eq_comm]
    · simp [hg, hp]
  more p q ps n := by
    rw [List.mapM_cons]
    generalize (q :: ps).mapM group? = rest
    rcases group?_or_not p with ⟨g, hg, hp⟩ | ⟨hg, hp⟩
    · cases rest <;> simp [hg, hp, eq_comm]
    · simp [hg, hp]

/-! ## The double colon -/

theorem cutGap?_cons
    {rest : List Char}
    (single : c = ':' → rest.head? ≠ some ':') :
    cutGap? (c :: rest) =
      (cutGap? rest).map fun p => (c :: p.1, p.2) := by
  rw [cutGap?]
  rintro _ rfl rfl
  exact single rfl rfl

theorem cutGap?_append
    {xs : List Char}
    (absent : ':' ∉ xs)
    (ys : List Char) :
    cutGap? (xs ++ ys) =
      (cutGap? ys).map fun p => (xs ++ p.1, p.2) := by
  induction xs with
  | nil => simp
  | cons x rest ih =>
      rw [List.mem_cons, not_or] at absent
      rw [List.cons_append,
        cutGap?_cons (fun h => absurd h.symm absent.1), ih absent.2,
        Option.map_map]
      rfl

/-- There is no double colon in groups or where they meet another text: what comes
after a colon in them begins with a digit. -/
theorem Groups.cutGap?_append
    (groups : Groups allowed n cs)
    (ys : List Char) :
    cutGap? (cs ++ ys) =
      (cutGap? ys).map fun p => (cs ++ p.1, p.2) := by
  have hcolon : ¬ Digits.IsHex ':' := by decide
  induction groups with
  | one hg => exact SocketAddress.cutGap?_append (hg.not_mem hcolon) ys
  | octets _ hq =>
      exact SocketAddress.cutGap?_append
        (hq.not_mem (by decide) (by decide)) ys
  | @more n g rest hg hrest ih =>
      obtain ⟨d, ds, hcons, hne⟩ := hrest.begins
      have hsingle : (rest ++ ys).head? ≠ some ':' := by
        rw [hcons]
        simpa using hne
      rw [List.append_assoc, List.cons_append,
        SocketAddress.cutGap?_append (hg.not_mem hcolon),
        cutGap?_cons fun _ => hsingle, ih, Option.map_map, Option.map_map]
      simp [Function.comp_def]

theorem eq_of_cutGap?
    {before after : List Char}
    (cut : cutGap? cs = some (before, after)) :
    cs = before ++ ':' :: ':' :: after := by
  fun_induction cutGap? cs generalizing before with
  | case1 rest =>
      cases cut
      rfl
  | case2 c rest _ ih =>
      obtain ⟨⟨b, a⟩, hcut, h⟩ := Option.map_eq_some_iff.mp cut
      cases h
      rw [ih hcut]
      rfl
  | case3 => cases cut

theorem Side.cutGap?
    (side : Side allowed n cs)
    (after : List Char) :
    cutGap? (cs ++ ':' :: ':' :: after) = some (cs, after) := by
  cases side with
  | none => rfl
  | groups hcs =>
      rw [hcs.cutGap?_append]
      simp [SocketAddress.cutGap?]

/-- The groups of a host are read exactly if they are written. -/
theorem groups?_isSome_iff :
    (groups? cs).isSome ↔ Host cs := by
  constructor
  · intro hread
    unfold groups? at hread
    split at hread
    · next hcut =>
        split at hread
        · next gs hgs =>
            split_ifs at hread with height
            · exact Host.full (groupsOfPieces?_counts.pieces_iff.mp
                (by rw [hgs, ← height]; rfl))
            · cases hread
        · cases hread
    · next before after hcut =>
        split at hread
        · next l r hl hr =>
            split_ifs at hread with hfewer
            · rw [eq_of_cutGap? hcut]
              exact Host.gap
                (mapM_group?_counts.side_iff.mp (congrArg _ hl))
                (groupsOfPieces?_counts.side_iff.mp (congrArg _ hr))
                hfewer
            · cases hread
        · cases hread
  · rintro (hcs | ⟨hbefore, hafter, hfewer⟩)
    · have hcut : cutGap? cs = none := by
        rw [← List.append_nil cs, hcs.cutGap?_append]
        rfl
      obtain ⟨gs, hgs, height⟩ := Option.map_eq_some_iff.mp
        (groupsOfPieces?_counts.pieces_of_groups hcs)
      simp [groups?, hcut, hgs, height]
    · obtain ⟨l, hl, rfl⟩ := Option.map_eq_some_iff.mp
        (mapM_group?_counts.side_iff.mpr hbefore)
      obtain ⟨r, hr, rfl⟩ := Option.map_eq_some_iff.mp
        (groupsOfPieces?_counts.side_iff.mpr hafter)
      unfold groups?
      rw [hbefore.cutGap?]
      simp only [groupsBefore?, groupsAfter?]
      rw [hl, hr]
      simp [hfewer]

/-! ## Whole addresses -/

/-- What is in brackets is read exactly if it is a host, or one and a scope. -/
theorem scoped?_isSome_iff :
    (scoped? cs).isSome ↔
      Host cs ∨
        ∃ host scope, cs = host ++ '%' :: scope ∧
          Host host ∧ IsScope scope := by
  have hpercent : ∀ {host : List Char}, Host host → '%' ∉ host :=
    fun h => h.not_mem (by decide) (by decide) (by decide)
  constructor
  · intro hread
    unfold scoped? at hread
    split at hread
    · rw [Option.isSome_map] at hread
      exact Or.inl (groups?_isSome_iff.mp hread)
    · next host scope hcut =>
        split at hread
        · next gs s hgs hs =>
            exact Or.inr ⟨host, scope, eq_of_cut? hcut,
              groups?_isSome_iff.mp (by rw [hgs]; rfl),
              scope?_isSome_iff.mp (by rw [hs]; rfl)⟩
        · cases hread
  · rintro (hhost | ⟨host, scope, rfl, hhost, hscope⟩)
    · unfold scoped?
      rw [cut?_eq_none_iff.mpr (hpercent hhost)]
      simpa using groups?_isSome_iff.mpr hhost
    · obtain ⟨gs, hgs⟩ :=
        Option.isSome_iff_exists.mp (groups?_isSome_iff.mpr hhost)
      obtain ⟨s, hs⟩ :=
        Option.isSome_iff_exists.mp (scope?_isSome_iff.mpr hscope)
      unfold scoped?
      rw [cut?_append_cons (hpercent hhost)]
      simp only [hgs, hs]
      rfl

/-- What is read is written. -/
theorem written_of_read
    (read : (ofChars? cs).isSome) :
    Written cs := by
  unfold ofChars? at read
  split at read
  · next rest =>
      split at read
      · next inside port hcut =>
          split at read
          · next gs s p hgs hp =>
              have hport := port?_isSome_iff.mp (by rw [hp]; rfl)
              rw [eq_of_cut? hcut]
              rcases scoped?_isSome_iff.mp (by rw [hgs]; rfl) with
                hhost | ⟨host, scope, rfl, hhost, hscope⟩
              · exact Written.groups hhost hport
              · rw [List.append_assoc, List.cons_append]
                exact Written.inScope hhost hscope hport
          · cases read
      · cases read
  · split at read
    · next host port hcut =>
        split at read
        · next os p hos hp =>
            rw [eq_of_cut? hcut]
            exact Written.octets
              (octets?_isSome_iff.mp (by rw [hos]; rfl))
              (port?_isSome_iff.mp (by rw [hp]; rfl))
        · cases read
    · cases read

/-- What is in brackets is read with the port after them. -/
theorem read_brackets
    {inside port : List Char}
    (hinside : (scoped? inside).isSome)
    (hbracket : ']' ∉ inside)
    (hport : IsPort port) :
    (ofChars? ('[' :: (inside ++ ']' :: ':' :: port))).isSome := by
  obtain ⟨⟨gs, s⟩, hgs⟩ := Option.isSome_iff_exists.mp hinside
  obtain ⟨p, hp⟩ :=
    Option.isSome_iff_exists.mp (port?_isSome_iff.mpr hport)
  unfold ofChars?
  simp only [cut?_append_cons hbracket, hgs, hp]
  rfl

/-- What is written is read. -/
theorem read_of_written
    (written : Written cs) :
    (ofChars? cs).isSome := by
  have hbracket : ∀ {host : List Char}, Host host → ']' ∉ host :=
    fun h => h.not_mem (by decide) (by decide) (by decide)
  cases written with
  | @octets host port hhost hport =>
      obtain ⟨os, hos⟩ :=
        Option.isSome_iff_exists.mp (octets?_isSome_iff.mpr hhost)
      obtain ⟨p, hp⟩ :=
        Option.isSome_iff_exists.mp (port?_isSome_iff.mpr hport)
      have hopening : ∀ rest, host ++ ':' :: port ≠ '[' :: rest := by
        intro rest h
        have hmem : '[' ∈ host ++ ':' :: port := by
          rw [h]
          exact List.mem_cons_self
        have hinHost : '[' ∉ host := hhost.not_mem (by decide) (by decide)
        have hinPort : '[' ∉ port := IsNumber.not_mem hport (by decide)
        simp [hinHost, hinPort] at hmem
      rw [ofChars?.eq_2 _ hopening,
        cut?_append_cons (hhost.not_mem (by decide) (by decide))]
      simp only [hos, hp]
      rfl
  | groups hhost hport =>
      exact read_brackets (scoped?_isSome_iff.mpr (Or.inl hhost))
        (hbracket hhost) hport
  | @inScope host scope port hhost hscope hport =>
      have hinside : ']' ∉ host ++ '%' :: scope := by
        have hdigits : ']' ∉ scope := IsNumber.not_mem hscope (by decide)
        simp [hbracket hhost, hdigits]
      have hread := read_brackets
        (scoped?_isSome_iff.mpr
          (Or.inr ⟨host, scope, rfl, hhost, hscope⟩)) hinside hport
      rwa [List.append_assoc, List.cons_append] at hread

end

/-- The addresses that are read are those of the grammar. -/
theorem parse?_isSome_iff
    {s : String} :
    (parse? s).isSome ↔ Written s.toList :=
  ⟨written_of_read, read_of_written⟩

/-- A double colon stands for one group at least. -/
example :
    (parse? "[1:2:3:4:5:6:7::]:00080").isSome = true ∧
      parse? "[1:2:3:4:5:6:7:8::]:80" = none := by
  cbv

/-- Four octets are two of the groups, and only at the end. -/
example :
    (parse? "[1::5:6:127.0.0.1%007]:0").isSome = true ∧
      parse? "[127.0.0.1::1]:0" = none := by
  cbv

end SocketAddress

/-! ## What validation reports -/

namespace Settings

open SocketAddress

variable {s : Settings} {v : Violation}

/-- Validation refuses the settings, and for this among others. -/
def Reports (s : Settings) (v : Violation) : Prop :=
  ∃ vs, s.validate = .error vs ∧ v ∈ vs

theorem reports_iff :
    s.Reports v ↔ v ∈ s.violations := by
  unfold Reports validate
  cases s.violations with
  | nil => simp
  | cons first rest => simp

/-- Everything that can be reported, with the condition that is not met. -/
theorem mem_violations_iff :
    v ∈ s.violations ↔
      (v = .readSizeZero ∧ s.connection.readSize = 0) ∨
      (v = .readSizeTooLarge ∧
        maxReadSize < s.connection.readSize.toNat) ∨
      (v = .previewLengthZero ∧ s.connection.previewLength = 0) ∨
      (v = .bindAddress s.listener.bindAddress ∧
        ¬ Written s.listener.bindAddress.toList) ∨
      (v = .maxConnectionsZero ∧ s.listener.maxConnections = 0) ∨
      (v = .metricsAddress s.report.metricsAddress ∧
        s.report.metricsEnabled = true ∧
        ¬ Written s.report.metricsAddress.toList) := by
  have hread :
      v ∈ s.readSizeViolations ↔
        (v = .readSizeZero ∧ s.connection.readSize = 0) ∨
        (v = .readSizeTooLarge ∧
          maxReadSize < s.connection.readSize.toNat) := by
    unfold readSizeViolations
    split_ifs with hzero hlarge
    · simp [hzero]
    · simp [hzero, hlarge]
    · simp [hzero, hlarge]
  have hpreview :
      v ∈ s.previewLengthViolations ↔
        v = .previewLengthZero ∧ s.connection.previewLength = 0 := by
    unfold previewLengthViolations
    split_ifs with hzero <;> simp [hzero]
  have hbind :
      v ∈ s.bindAddressViolations ↔
        v = .bindAddress s.listener.bindAddress ∧
          ¬ Written s.listener.bindAddress.toList := by
    unfold bindAddressViolations isAddress
    rw [← parse?_isSome_iff]
    split_ifs with haddress <;> simp [haddress]
  have hmax :
      v ∈ s.maxConnectionsViolations ↔
        v = .maxConnectionsZero ∧ s.listener.maxConnections = 0 := by
    unfold maxConnectionsViolations
    split_ifs with hzero <;> simp [hzero]
  have hmetrics :
      v ∈ s.metricsAddressViolations ↔
        v = .metricsAddress s.report.metricsAddress ∧
          s.report.metricsEnabled = true ∧
          ¬ Written s.report.metricsAddress.toList := by
    unfold metricsAddressViolations isAddress
    rw [← parse?_isSome_iff]
    cases s.report.metricsEnabled <;>
      cases parse? s.report.metricsAddress <;> simp
  rw [violations]
  simp only [List.mem_append, hread, hpreview, hbind, hmax, hmetrics,
    or_assoc]

/-- What is reported of the address to listen at is that it is not one, exactly if
it is not in the grammar.  Of the address of the counters the same is reported,
exactly if counters are published. -/
theorem reported_addresses
    (s : Settings) (v : Violation) :
    (s.Reports v ∧ v.field = "listener.bind_address" ↔
      v = .bindAddress s.listener.bindAddress ∧
        ¬ Written s.listener.bindAddress.toList) ∧
    (s.Reports v ∧ v.field = "observability.metrics_address" ↔
      v = .metricsAddress s.report.metricsAddress ∧
        s.report.metricsEnabled = true ∧
        ¬ Written s.report.metricsAddress.toList) := by
  rw [reports_iff, mem_violations_iff]
  cases v <;> simp [Violation.field]

end Settings

end StreamServer
