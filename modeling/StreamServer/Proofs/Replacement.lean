import StreamServer.Proofs.Encoding

/-!
# The rule of replacement

The lossy reading of octets keeps every character and shows a replacement character for
the rest.  How much of the rest is replaced by one of them is a rule of its own, stated
here without the decoder: where no character begins, as much as could be the beginning
of one, but at least one octet.  The rule leaves no choice, and the segments are those
that it prescribes.

The decoder carries an open sequence.  All that is needed of it is that the octets taken
lead to it and that it spells characters, whichever way it goes on.  Where it refuses an
octet, no encoding goes on with that octet, as the decoder would have cut it off as a
character.
-/

namespace StreamServer

namespace Utf8

/-! ## Open sequences -/

namespace Partial

/-- An octet is admitted if it lies in the range. -/
theorem accepts_iff
    {p : Partial} {b : UInt8} :
    p.accepts b = true ↔ p.low.toNat ≤ b.toNat ∧ b.toNat ≤ p.high.toNat := by
  simp only [accepts, Bool.and_eq_true, decide_eq_true_eq,
    UInt8.le_iff_toNat_le]

/-- A range of continuation octets with one in it. -/
structure IsRange (low high : UInt8) : Prop where
  above : 0x80 ≤ low.toNat
  inhabited : low.toNat ≤ high.toNat
  below : high.toNat ≤ 0xBF

/-- After the first of them, any continuation octet may follow. -/
theorem isRange_tails : IsRange 0x80 0xBF :=
  ⟨by decide, by decide, by decide⟩

/-- The sequence that a lead octet begins, by the number of octets due.  What it
admits next makes no overlong form, no surrogate and no value beyond the last. -/
theorem ofLead?_cases
    {b : UInt8} {p : Partial}
    (leads : ofLead? b = some p) :
    ∃ n low high, IsRange low high ∧
      ((2 ≤ n ∧ n < 32 ∧
          p = ⟨[UInt8.ofNat (n + 0xC0)], n, 1, low, high⟩) ∨
        (n < 16 ∧
          (n = 0 → 0xA0 ≤ low.toNat) ∧ (n = 13 → high.toNat ≤ 0x9F) ∧
          p = ⟨[UInt8.ofNat (n + 0xE0)], n, 2, low, high⟩) ∨
        (n < 5 ∧
          (n = 0 → 0x90 ≤ low.toNat) ∧ (n = 4 → high.toNat ≤ 0x8F) ∧
          p = ⟨[UInt8.ofNat (n + 0xF0)], n, 3, low, high⟩)) := by
  have hlead : ∀ n, n ≤ b.toNat → [UInt8.ofNat (b.toNat - n + n)] = [b] := by
    intro n hle
    rw [Nat.sub_add_cancel hle, UInt8.ofNat_toNat]
  revert leads
  fun_cases ofLead? b with
  | case1 two =>
      rintro ⟨⟩
      simp only [Bool.and_eq_true, decide_eq_true_eq, UInt8.le_iff_toNat_le,
        UInt8.reduceToNat] at two
      refine ⟨b.toNat - 0xC0, _, _, isRange_tails, Or.inl ⟨by omega, by omega, ?_⟩⟩
      rw [hlead 0xC0 (by omega)]
  | case2 _ lead =>
      subst lead
      rintro ⟨⟩
      refine ⟨0, 0xA0, 0xBF, ⟨?_, ?_, ?_⟩,
        Or.inr (Or.inl ⟨?_, ?_, ?_, rfl⟩)⟩
      all_goals decide
  | case3 _ _ lead =>
      subst lead
      rintro ⟨⟩
      refine ⟨13, 0x80, 0x9F, ⟨?_, ?_, ?_⟩,
        Or.inr (Or.inl ⟨?_, ?_, ?_, rfl⟩)⟩
      all_goals decide
  | case4 not_two not_first no_surrogates three =>
      rintro ⟨⟩
      simp only [Bool.and_eq_true, decide_eq_true_eq, UInt8.le_iff_toNat_le,
        UInt8.reduceToNat, ← UInt8.toNat_inj] at no_surrogates three
      refine ⟨b.toNat - 0xE0, _, _, isRange_tails,
        Or.inr (Or.inl ⟨by omega, by omega, by omega, ?_⟩)⟩
      rw [hlead 0xE0 (by omega)]
  | case5 _ _ _ _ lead =>
      subst lead
      rintro ⟨⟩
      refine ⟨0, 0x90, 0xBF, ⟨?_, ?_, ?_⟩,
        Or.inr (Or.inr ⟨?_, ?_, ?_, rfl⟩)⟩
      all_goals decide
  | case6 _ _ _ _ _ lead =>
      subst lead
      rintro ⟨⟩
      refine ⟨4, 0x80, 0x8F, ⟨?_, ?_, ?_⟩,
        Or.inr (Or.inr ⟨?_, ?_, ?_, rfl⟩)⟩
      all_goals decide
  | case7 _ _ _ _ _ _ four =>
      rintro ⟨⟩
      simp only [Bool.and_eq_true, decide_eq_true_eq, UInt8.le_iff_toNat_le,
        UInt8.reduceToNat] at four
      refine ⟨b.toNat - 0xF0, _, _, isRange_tails,
        Or.inr (Or.inr ⟨by omega, by omega, by omega, ?_⟩)⟩
      rw [hlead 0xF0 (by omega)]
  | case8 =>
      rintro ⟨⟩

/-- The sequence with more octets, one after another. -/
def pushAll (p : Partial) (bs : Bytes) : Partial :=
  bs.foldl push p

/-- Whichever octets a sequence admits up to the last one due, they make up the
character whose number it comes to. -/
def Spells (p : Partial) : Prop :=
  ∀ b more,
    p.accepts b = true →
    more.length + 1 = p.due →
    (∀ t ∈ more, IsTail t) →
    String.utf8EncodeChar (Char.ofNat (p.pushAll (b :: more)).value) =
      p.taken ++ b :: more

/-- The sequence of a lead octet spells characters. -/
theorem spells_of_ofLead?
    {b : UInt8} {p : Partial}
    (leads : ofLead? b = some p) :
    p.Spells := by
  obtain ⟨n, low, high, hrange, hshape⟩ := ofLead?_cases leads
  have habove := hrange.above
  have hbelow := hrange.below
  intro t more accepted due tails
  rcases hshape with
    ⟨hle, hlt, rfl⟩ | ⟨hlt, hlow, hhigh, rfl⟩ | ⟨hlt, hlow, hhigh, rfl⟩
  all_goals
    obtain ⟨hle_t, ht_le⟩ := accepts_iff.mp accepted
    have ht : IsTail t := ⟨Nat.le_trans habove hle_t, Nat.le_trans ht_le hbelow⟩
  · match more, due with
    | [], _ => exact encode_two hle hlt ht
  · match more, due with
    | [u], _ =>
        have hu : IsTail u := tails u (by simp)
        exact encode_three hlt (fun h => Nat.le_trans (hlow h) hle_t)
          (fun h => Nat.le_trans ht_le (hhigh h)) ht hu
  · match more, due with
    | [u, v], _ =>
        have hu : IsTail u := tails u (by simp)
        have hv : IsTail v := tails v (by simp)
        exact encode_four hlt (fun h => Nat.le_trans (hlow h) hle_t)
          (fun h => Nat.le_trans ht_le (hhigh h)) ht hu hv

/--
What is true of a sequence that is open while octets are read.  The octets taken
lead to it, whatever follows them, and it spells characters.
-/
structure Begun (p : Partial) : Prop where
  due_pos : 0 < p.due
  range : IsRange p.low p.high
  reached : ∀ rest,
    segmentsFrom none (p.taken ++ rest) = segmentsFrom (some p) rest
  spells : p.Spells

/-- A lead octet begins a sequence. -/
theorem begun_of_ofLead?
    {b : UInt8} {p : Partial}
    (beyond : ¬ b < 0x80)
    (leads : ofLead? b = some p) :
    p.Begun ∧ p.taken = [b] := by
  have hstart : start b = ([], some p) := by
    simp only [start, if_neg beyond, leads]
  have htaken : p.taken = [b] := by
    have hoctets := start_octets b
    rw [hstart] at hoctets
    exact hoctets
  have hreached : ∀ rest,
      segmentsFrom none (p.taken ++ rest) = segmentsFrom (some p) rest := by
    intro rest
    rw [htaken, List.singleton_append, segmentsFrom, hstart]
    rfl
  have hfields : 0 < p.due ∧ IsRange p.low p.high := by
    obtain ⟨n, low, high, hrange, hshape⟩ := ofLead?_cases leads
    rcases hshape with ⟨-, -, rfl⟩ | ⟨-, -, -, rfl⟩ | ⟨-, -, -, rfl⟩
    all_goals exact ⟨Nat.succ_pos _, hrange⟩
  exact ⟨⟨hfields.1, hfields.2, hreached, spells_of_ofLead? leads⟩, htaken⟩

namespace Begun

variable {p : Partial} {b : UInt8}

/-- An octet that is admitted and not the last goes on with the sequence.  To go on
from here is to go on with this octet from before. -/
theorem push
    (begun : p.Begun)
    (accepted : p.accepts b = true)
    (not_last : p.due ≠ 1) :
    (p.push b).Begun where
  due_pos := by
    have hdue := begun.due_pos
    simp only [Partial.push]
    omega
  range := isRange_tails
  reached := by
    intro rest
    rw [Partial.push, List.append_assoc, List.singleton_append,
      begun.reached, segmentsFrom, if_pos accepted, if_neg not_last]
    rfl
  spells := by
    intro t more next due tails
    have ht : IsTail t := accepts_iff.mp next
    have hall : ∀ u ∈ t :: more, IsTail u := by
      intro u mem
      rcases List.mem_cons.mp mem with rfl | hmore
      · exact ht
      · exact tails u hmore
    have hlength : (t :: more).length + 1 = p.due := by
      have hdue := begun.due_pos
      simp only [Partial.push] at due
      rw [List.length_cons]
      omega
    have hencode := begun.spells b (t :: more) accepted hlength hall
    rw [Partial.push, List.append_assoc, List.singleton_append]
    exact hencode

/-- An octet that is admitted and the last completes a character. -/
theorem complete
    (begun : p.Begun)
    (accepted : p.accepts b = true)
    (last : p.due = 1) :
    ∃ c,
      p.taken ++ [b] = String.utf8EncodeChar c ∧
      (p.push b).complete = .scalar c (String.utf8EncodeChar c) := by
  have hencode := begun.spells b [] accepted last.symm (by simp)
  refine ⟨Char.ofNat (p.push b).value, hencode.symm, ?_⟩
  exact congrArg (Segment.scalar _) hencode.symm

/-- The octets taken are the beginning of a character's.  Any way on will do, so the
lowest octet is taken each time. -/
theorem taken_prefix
    (begun : p.Begun) :
    ∃ c, p.taken <+: String.utf8EncodeChar c := by
  have htail : IsTail 0x80 := ⟨by decide, by decide⟩
  have haccepts : p.accepts p.low = true :=
    accepts_iff.mpr ⟨Nat.le_refl _, begun.range.inhabited⟩
  have hlength :
      (List.replicate (p.due - 1) (0x80 : UInt8)).length + 1 = p.due := by
    have hdue := begun.due_pos
    rw [List.length_replicate]
    omega
  have hencode := begun.spells p.low (List.replicate (p.due - 1) 0x80)
    haccepts hlength (fun t mem => (List.eq_of_mem_replicate mem) ▸ htail)
  exact ⟨_, p.low :: List.replicate (p.due - 1) 0x80, hencode.symm⟩

end Begun

end Partial

/-! ## The rule of replacement -/

/--
What is replaced where octets are `bs` and then `rest`.  No character begins here; and
of the octets that are here, `bs` is as much as could be the beginning of a character's,
or the first of them where not even that could be.
-/
structure MaximalSubpart (bs rest : Bytes) : Prop where
  ne_nil : bs ≠ []
  unconvertible : ∀ c, ¬ String.utf8EncodeChar c <+: bs ++ rest
  subpart : bs.length = 1 ∨ ∃ c, bs <+: String.utf8EncodeChar c
  longest : ∀ more c,
    more <+: bs ++ rest → more <+: String.utf8EncodeChar c →
      more.length ≤ bs.length

/--
The segments that the rule of replacement prescribes.  The encoding of a character is
kept, and where there is none, what is replaced is as long as can be.
-/
inductive Cut : Bytes → List Segment → Prop
  | nil : Cut [] []
  | scalar
      (c : Char)
      {rest : Bytes} {segs : List Segment}
      (behind : Cut rest segs) :
      Cut (String.utf8EncodeChar c ++ rest)
        (.scalar c (String.utf8EncodeChar c) :: segs)
  | illFormed
      {bs rest : Bytes} {segs : List Segment}
      (maximal : MaximalSubpart bs rest)
      (behind : Cut rest segs) :
      Cut (bs ++ rest) (.illFormed bs :: segs)

/-- Octets are replaced together if they are cut off as ill-formed whatever comes behind
the next octet.  Those of a character would be cut off as its segment, and the next
octet is the same here as in any text they would begin. -/
theorem maximalSubpart_of_segments
    {bs rest : Bytes}
    (ne_nil : bs ≠ [])
    (subpart : bs.length = 1 ∨ ∃ c, bs <+: String.utf8EncodeChar c)
    (seen : ∀ more, more.head? = rest.head? →
      ∃ segs, segmentsFrom none (bs ++ more) = .illFormed bs :: segs) :
    MaximalSubpart bs rest where
  ne_nil := ne_nil
  subpart := subpart
  unconvertible := by
    rintro c ⟨more, hmore⟩
    obtain ⟨segs, hsegs⟩ := seen rest rfl
    rw [← hmore, segmentsFrom_encode] at hsegs
    cases hsegs
  longest := by
    intro more c here begins
    refine Nat.le_of_not_lt fun longer => ?_
    obtain ⟨ext, rfl⟩ :=
      List.prefix_of_prefix_length_le (List.prefix_append bs rest) here
        (Nat.le_of_lt longer)
    obtain ⟨last, hlast⟩ := begins
    have hext : ext <+: rest := (List.prefix_append_right_inj bs).mp here
    have hnext : (ext ++ last).head? = rest.head? := by
      obtain ⟨behind, rfl⟩ := hext
      cases ext with
      | nil => simp at longer
      | cons b ext => rfl
    obtain ⟨segs, hsegs⟩ := seen (ext ++ last) hnext
    have hencode := segmentsFrom_encode c []
    rw [List.append_nil, ← hlast, List.append_assoc, hsegs] at hencode
    cases hencode

/-- An open sequence is replaced where it stops: at the end, or before an octet that it
does not admit. -/
theorem Partial.Begun.maximalSubpart
    {p : Partial} {rest : Bytes}
    (begun : p.Begun)
    (stops : ∀ b ∈ rest.head?, ¬ p.accepts b = true) :
    MaximalSubpart p.taken rest := by
  have hne : p.taken ≠ [] := by
    intro hnil
    have hreached := begun.reached []
    rw [hnil] at hreached
    cases hreached
  refine maximalSubpart_of_segments hne (Or.inr begun.taken_prefix) ?_
  intro more same_next
  rw [begun.reached]
  cases more with
  | nil => exact ⟨_, rfl⟩
  | cons b more =>
      have hrefused : ¬ p.accepts b = true := stops b (by simp [← same_next])
      rw [segmentsFrom, if_neg hrefused]
      exact ⟨_, rfl⟩

/-- What an octet outside any sequence does. -/
theorem start_cases
    (b : UInt8) :
    (∃ c, [b] = String.utf8EncodeChar c ∧
      start b = ([.scalar c (String.utf8EncodeChar c)], none)) ∨
    (∃ p : Partial, p.Begun ∧ p.taken = [b] ∧ start b = ([], some p)) ∨
    start b = ([.illFormed [b]], none) := by
  by_cases ascii : b < 0x80
  · have hencode := encode_one ascii
    refine Or.inl ⟨Char.ofNat b.toNat, hencode.symm, ?_⟩
    rw [start, if_pos ascii, hencode]
  · cases hlead : Partial.ofLead? b with
    | some p =>
        obtain ⟨begun, htaken⟩ := Partial.begun_of_ofLead? ascii hlead
        refine Or.inr (Or.inl ⟨p, begun, htaken, ?_⟩)
        simp only [start, if_neg ascii, hlead]
    | none =>
        refine Or.inr (Or.inr ?_)
        simp only [start, if_neg ascii, hlead]

/-- The segments are cut as prescribed if those behind each octet are. -/
theorem cut_cons
    {b : UInt8} {rest : Bytes}
    (behind : ∀ open?,
      (∀ p ∈ open?, p.Begun) →
      Cut (open?.elim [] Partial.taken ++ rest) (segmentsFrom open? rest)) :
    Cut (b :: rest) (segmentsFrom none (b :: rest)) := by
  rw [segmentsFrom]
  rcases start_cases b with
    ⟨c, hc, hstart⟩ | ⟨p, begun, htaken, hstart⟩ | hstart
  · rw [hstart, ← List.singleton_append, hc]
    exact Cut.scalar c (behind none (by simp))
  · rw [hstart, ← List.singleton_append, ← htaken]
    exact behind (some p) (by simpa using begun)
  · have hmaximal : MaximalSubpart [b] rest := by
      refine maximalSubpart_of_segments (List.cons_ne_nil b []) (Or.inl rfl) ?_
      intro more _
      rw [List.singleton_append, segmentsFrom, hstart]
      exact ⟨_, rfl⟩
    rw [hstart]
    exact Cut.illFormed hmaximal (behind none (by simp))

/-- The segments are cut as prescribed, also behind a sequence that is open, as long as
it is one that octets lead to. -/
theorem cut_segmentsFrom
    (open? : Option Partial) (bs : Bytes)
    (begun : ∀ p ∈ open?, p.Begun) :
    Cut (open?.elim [] Partial.taken ++ bs) (segmentsFrom open? bs) := by
  induction bs generalizing open? with
  | nil =>
      cases open? with
      | none => exact Cut.nil
      | some p =>
          have hp : p.Begun := begun p rfl
          exact Cut.illFormed (hp.maximalSubpart (by simp)) Cut.nil
  | cons b rest ih =>
      cases open? with
      | none => exact cut_cons ih
      | some p =>
          have hp : p.Begun := begun p rfl
          rw [Option.elim_some, segmentsFrom]
          split
          next accepted =>
            have htaken : p.taken ++ b :: rest = p.taken ++ [b] ++ rest := by
              simp
            rw [htaken]
            split
            next last =>
              obtain ⟨c, hc, hcomplete⟩ := hp.complete accepted last
              rw [hc, hcomplete]
              exact Cut.scalar c (ih none (by simp))
            next not_last =>
              exact ih (some (p.push b))
                (by simpa using hp.push accepted not_last)
          next refused =>
            exact Cut.illFormed (hp.maximalSubpart (by simpa using refused))
              (cut_cons ih)

/-- The segments of octets are those that the rule prescribes. -/
theorem cut_segments
    (bs : Bytes) :
    Cut bs (segments bs) :=
  cut_segmentsFrom none bs (by simp)

section Unique

variable {bs cs rest rest' : Bytes}

/-- Of what might be replaced at the front of the same octets, nothing is longer. -/
theorem MaximalSubpart.length_le
    (maximal : MaximalSubpart bs rest)
    (maximal' : MaximalSubpart cs rest')
    (same : bs ++ rest = cs ++ rest') :
    cs.length ≤ bs.length := by
  rcases maximal'.subpart with hone | ⟨c, hc⟩
  · rw [hone]
    exact List.length_pos_iff.mpr maximal.ne_nil
  · have here : cs <+: bs ++ rest := ⟨rest', same.symm⟩
    exact maximal.longest cs c here hc

/-- What is replaced at the front of octets is determined. -/
theorem MaximalSubpart.eq_of_append
    (maximal : MaximalSubpart bs rest)
    (maximal' : MaximalSubpart cs rest')
    (same : bs ++ rest = cs ++ rest') :
    bs = cs ∧ rest = rest' := by
  have hle := maximal.length_le maximal' same
  have hge := maximal'.length_le maximal same.symm
  exact List.append_inj same (Nat.le_antisymm hge hle)

end Unique

/-- The rule leaves no choice. -/
theorem Cut.unique
    {bs : Bytes} {segs segs' : List Segment}
    (cut : Cut bs segs)
    (cut' : Cut bs segs') :
    segs = segs' := by
  induction cut generalizing segs' with
  | nil =>
      generalize hbs : ([] : Bytes) = bs at cut'
      cases cut' with
      | nil => rfl
      | scalar c behind' =>
          exact absurd (List.append_eq_nil_iff.mp hbs.symm).1
            String.utf8EncodeChar_ne_nil
      | illFormed maximal' behind' =>
          exact absurd (List.append_eq_nil_iff.mp hbs.symm).1 maximal'.ne_nil
  | @scalar c rest segs behind ih =>
      generalize hbs : String.utf8EncodeChar c ++ rest = bs at cut'
      cases cut' with
      | nil =>
          exact absurd (List.append_eq_nil_iff.mp hbs).1
            String.utf8EncodeChar_ne_nil
      | scalar d behind' =>
          obtain ⟨rfl, rfl⟩ := eq_of_encode_append hbs
          rw [ih behind']
      | illFormed maximal' behind' =>
          exact absurd ⟨rest, hbs⟩ (maximal'.unconvertible c)
  | @illFormed bs rest segs maximal behind ih =>
      generalize hall : bs ++ rest = all at cut'
      cases cut' with
      | nil =>
          exact absurd (List.append_eq_nil_iff.mp hall).1 maximal.ne_nil
      | scalar d behind' =>
          exact absurd ⟨_, hall.symm⟩ (maximal.unconvertible d)
      | illFormed maximal' behind' =>
          obtain ⟨rfl, rfl⟩ := maximal.eq_of_append maximal' hall
          rw [ih behind']

/-- The segments of octets are those that the rule prescribes, and no others are. -/
theorem cut_iff
    {bs : Bytes} {segs : List Segment} :
    Cut bs segs ↔ segs = segments bs := by
  constructor
  · intro cut
    exact cut.unique (cut_segments bs)
  · rintro rfl
    exact cut_segments bs

/-- Three octets of a sequence of four are replaced together, those of an overlong form
and of a surrogate one by one. -/
example :
    segments [0xF0, 0x9F, 0x92, 0x61, 0xC0, 0xAF, 0xED, 0xA0] =
      [.illFormed [0xF0, 0x9F, 0x92], .scalar 'a' [0x61],
        .illFormed [0xC0], .illFormed [0xAF],
        .illFormed [0xED], .illFormed [0xA0]] := by
  rfl

/-! ## Sizes -/

/-- There are no more segments than octets. -/
theorem Cut.length_le
    {bs : Bytes} {segs : List Segment}
    (cut : Cut bs segs) :
    segs.length ≤ bs.length := by
  induction cut with
  | nil => exact Nat.le_refl 0
  | scalar c behind ih =>
      have hpos : 0 < (String.utf8EncodeChar c).length :=
        List.length_pos_iff.mpr String.utf8EncodeChar_ne_nil
      rw [List.length_cons, List.length_append]
      omega
  | illFormed maximal behind ih =>
      have hpos := List.length_pos_iff.mpr maximal.ne_nil
      rw [List.length_cons, List.length_append]
      omega

/-- What is shown takes up to three times the octets, for so many does the replacement
character need. -/
theorem Cut.length_ofChars_le
    {bs : Bytes} {segs : List Segment}
    (cut : Cut bs segs) :
    (Bytes.ofChars (segs.map Segment.shown)).length ≤ 3 * bs.length := by
  induction cut with
  | nil => exact Nat.le_refl 0
  | scalar c behind ih =>
      rw [List.map_cons, Bytes.ofChars_cons, List.length_append,
        List.length_append, Segment.shown]
      omega
  | illFormed maximal behind ih =>
      have hpos := List.length_pos_iff.mpr maximal.ne_nil
      have hthree : (String.utf8EncodeChar '\uFFFD').length = 3 := rfl
      rw [List.map_cons, Bytes.ofChars_cons, List.length_append,
        List.length_append, Segment.shown, hthree]
      omega

/-! ## Texts that are cut off -/

/-- Octets that are the encoding of a text. -/
def WellFormed (bs : Bytes) : Prop :=
  ∃ cs, bs = Bytes.ofChars cs

/-- The first `n` octets of an encoded text end inside a character, the one that follows
the text `xs`. -/
def EndsInside (bs : Bytes) (n : Nat) (xs : List Char) : Prop :=
  ∃ c ys,
    bs = Bytes.ofChars (xs ++ c :: ys) ∧
    (Bytes.ofChars xs).length < n ∧
    n < (Bytes.ofChars (xs ++ [c])).length

/-- The longest text whose encoding octets begin with. -/
structure LongestText (bs : Bytes) (xs : List Char) : Prop where
  here : Bytes.ofChars xs <+: bs
  longest : ∀ ys, Bytes.ofChars ys <+: bs → ys <+: xs

/-- The beginning of a character's encoding is replaced as a whole. -/
theorem segments_of_part
    {c : Char} {part : Bytes}
    (ne_nil : part ≠ [])
    (begins : part <+: String.utf8EncodeChar c)
    (shorter : part.length < (String.utf8EncodeChar c).length) :
    segments part = [.illFormed part] := by
  have hmaximal : MaximalSubpart part [] := {
    ne_nil := ne_nil
    subpart := Or.inr ⟨c, begins⟩
    unconvertible := by
      intro d hd
      rw [List.append_nil] at hd
      obtain ⟨more, hmore⟩ := hd.trans begins
      have hsame :
          String.utf8EncodeChar d ++ more =
            String.utf8EncodeChar c ++ [] := by
        rw [hmore, List.append_nil]
      obtain ⟨rfl, -⟩ := eq_of_encode_append hsame
      exact absurd hd.length_le (Nat.not_le_of_lt shorter)
    longest := by
      intro more d here _
      rw [List.append_nil] at here
      exact here.length_le }
  have hcut := Cut.illFormed hmaximal Cut.nil
  rw [List.append_nil] at hcut
  exact (cut_iff.mp hcut).symm

namespace EndsInside

variable {bs : Bytes} {n : Nat} {xs : List Char}

/-- The octets up to where a text is cut off: whole characters, and a part of one that
is replaced. -/
theorem take_eq
    (inside : EndsInside bs n xs) :
    ∃ part,
      bs.take n = Bytes.ofChars xs ++ part ∧
      segments part = [.illFormed part] := by
  obtain ⟨c, ys, rfl, hbehind, hbefore⟩ := inside
  rw [Bytes.ofChars_append, Bytes.ofChars_singleton, List.length_append]
    at hbefore
  refine ⟨(String.utf8EncodeChar c).take (n - (Bytes.ofChars xs).length), ?_, ?_⟩
  · rw [Bytes.ofChars_append, Bytes.ofChars_cons, List.take_append,
      List.take_of_length_le (by omega), List.take_append_of_le_length (by omega)]
  · refine segments_of_part ?_ (List.take_prefix _ (String.utf8EncodeChar c)) ?_
    · rw [← List.length_pos_iff, List.length_take]
      omega
    · rw [List.length_take]
      omega

/-- A text that is cut off is shown up to there, with one replacement character for the
part of the next. -/
theorem decodeLossy_take
    (inside : EndsInside bs n xs) :
    decodeLossy (bs.take n) = xs ++ ['\uFFFD'] := by
  obtain ⟨part, htake, hpart⟩ := inside.take_eq
  rw [htake, decodeLossy_ofChars_append, decodeLossy, hpart]
  rfl

/-- No longer text is there than what stands before the character cut in two. -/
theorem longestText
    (inside : EndsInside bs n xs) :
    LongestText (bs.take n) xs := by
  obtain ⟨part, htake, hpart⟩ := inside.take_eq
  have hlossy := inside.decodeLossy_take
  constructor
  case here =>
    rw [htake]
    exact List.prefix_append _ part
  case longest =>
    rintro ys ⟨rest, hrest⟩
    rw [← hrest, decodeLossy_ofChars_append] at hlossy
    have hys : ys <+: xs ++ ['\uFFFD'] := ⟨_, hlossy⟩
    rcases List.prefix_concat_iff.mp hys with rfl | hxs
    · rw [htake, Bytes.ofChars_append, List.append_assoc,
        List.append_cancel_left_eq, Bytes.ofChars_singleton] at hrest
      rw [← hrest, segments, segmentsFrom_encode] at hpart
      cases hpart
    · exact hxs

end EndsInside

/-- The first octets of an encoded text are an encoded text, or end inside a
character. -/
theorem wellFormed_or_endsInside
    (cs : List Char) (n : Nat) :
    WellFormed ((Bytes.ofChars cs).take n) ∨
      ∃ xs, EndsInside (Bytes.ofChars cs) n xs := by
  induction cs generalizing n with
  | nil => exact Or.inl ⟨[], by simp [Bytes.ofChars_nil]⟩
  | cons c rest ih =>
      by_cases hnone : n = 0
      · exact Or.inl ⟨[], by simp [hnone, Bytes.ofChars_nil]⟩
      by_cases hpart : n < (String.utf8EncodeChar c).length
      · refine Or.inr ⟨[], c, rest, rfl, Nat.pos_of_ne_zero hnone, ?_⟩
        rw [List.nil_append, Bytes.ofChars_singleton]
        exact hpart
      · obtain ⟨m, rfl⟩ := Nat.exists_eq_add_of_le (Nat.le_of_not_lt hpart)
        rcases ih m with ⟨xs, hxs⟩ | ⟨xs, d, ys, hrest, hbehind, hbefore⟩
        · refine Or.inl ⟨c :: xs, ?_⟩
          rw [Bytes.ofChars_cons, List.take_length_add_append, hxs,
            Bytes.ofChars_cons]
        · refine Or.inr ⟨c :: xs, d, ys, ?_, ?_, ?_⟩
          · rw [Bytes.ofChars_cons, hrest, List.cons_append, Bytes.ofChars_cons]
          · rw [Bytes.ofChars_cons, List.length_append]
            omega
          · rw [List.cons_append, Bytes.ofChars_cons, List.length_append]
            omega

/-- The first octets of an encoded text are no encoded text just if they end inside a
character. -/
theorem not_wellFormed_take_iff
    {bs : Bytes} {n : Nat}
    (well_formed : WellFormed bs) :
    ¬ WellFormed (bs.take n) ↔ ∃ xs, EndsInside bs n xs := by
  constructor
  · intro torn
    obtain ⟨cs, rfl⟩ := well_formed
    exact (wellFormed_or_endsInside cs n).resolve_left torn
  · rintro ⟨xs, inside⟩ ⟨ys, hys⟩
    have hlossy := inside.decodeLossy_take
    rw [hys, decodeLossy_ofChars] at hlossy
    have hlonger : ys <+: xs :=
      inside.longestText.longest ys (hys ▸ List.prefix_refl _)
    have hle := hlonger.length_le
    rw [hlossy, List.length_append] at hle
    exact absurd hle (Nat.not_succ_le_self xs.length)

end Utf8

end StreamServer
