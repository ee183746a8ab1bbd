import StreamServer.Text.Utf8

/-!
# Encoding and decoding

The encoding of a character is cut off the front of an octet string as one
segment, so a text that was encoded is decoded to itself.

The sequence that a lead octet begins admits a range for the octet after it,
which is narrower than that of all later ones at the ends of the encodable
values.  The first continuation octet of a character lies in that range just
because the character is neither encoded shorter nor a surrogate nor too large;
and, the other way round, octets within the ranges are the encoding of a
character.
-/

namespace StreamServer

namespace Utf8

/-! ## Octets of a sequence -/

/-- A continuation octet with the given six bits. -/
def tail (m : Nat) : UInt8 :=
  UInt8.ofNat (m + 0x80)

theorem toNat_tail
    {m : Nat}
    (six_bits : m < 64) :
    (tail m).toNat = m + 0x80 := by
  simp only [tail, UInt8.toNat_ofNat']
  omega

/-- A lead octet begins its sequence. -/
theorem segmentsFrom_lead
    {n : Nat} {p : Partial}
    (octet : n < 256)
    (beyond : 0x80 ≤ n)
    (leads : Partial.ofLead? (UInt8.ofNat n) = some p)
    (bs : Bytes) :
    segmentsFrom none (UInt8.ofNat n :: bs) = segmentsFrom (some p) bs := by
  have hbeyond : ¬ UInt8.ofNat n < 0x80 := by
    simp only [UInt8.lt_iff_toNat_lt, UInt8.toNat_ofNat']
    show ¬ n % 256 < 0x80
    omega
  have hstart : start (UInt8.ofNat n) = ([], some p) := by
    simp only [start, if_neg hbeyond, leads]
  simp [segmentsFrom, hstart]

/-- A continuation octet within the range goes on with the sequence. -/
theorem segmentsFrom_go_on
    (taken : Bytes) (value due : Nat)
    {low high : UInt8} {m : Nat}
    (six_bits : m < 64)
    (above : low.toNat ≤ m + 0x80)
    (below : m + 0x80 ≤ high.toNat)
    (bs : Bytes) :
    segmentsFrom (some ⟨taken, value, due + 2, low, high⟩) (tail m :: bs) =
      segmentsFrom
        (some ⟨taken ++ [tail m], value * 64 + m, due + 1, 0x80, 0xBF⟩)
        bs := by
  have haccepts :
      Partial.accepts ⟨taken, value, due + 2, low, high⟩ (tail m) = true := by
    simp only [Partial.accepts, Bool.and_eq_true, decide_eq_true_eq,
      UInt8.le_iff_toNat_le, toNat_tail six_bits]
    exact ⟨above, below⟩
  have hbits : (m + 0x80) % 64 = m := by omega
  simp [segmentsFrom, haccepts, Partial.push, toNat_tail six_bits, hbits]

/-- The last continuation octet ends the sequence. -/
theorem segmentsFrom_finish
    (taken : Bytes) (value : Nat)
    {m : Nat}
    (six_bits : m < 64)
    (bs : Bytes) :
    segmentsFrom (some ⟨taken, value, 1, 0x80, 0xBF⟩) (tail m :: bs) =
      .scalar (Char.ofNat (value * 64 + m)) (taken ++ [tail m]) ::
        segmentsFrom none bs := by
  have haccepts :
      Partial.accepts ⟨taken, value, 1, 0x80, 0xBF⟩ (tail m) = true := by
    simp only [Partial.accepts, Bool.and_eq_true, decide_eq_true_eq,
      UInt8.le_iff_toNat_le, toNat_tail six_bits]
    exact ⟨Nat.le_add_left _ _, show m + 0x80 ≤ 0xBF by omega⟩
  have hbits : (m + 0x80) % 64 = m := by omega
  simp [segmentsFrom, haccepts, Partial.push, Partial.complete,
    toNat_tail six_bits, hbits]

/-! ## Lead octets -/

/-- The lead octet of two begins a sequence. -/
theorem ofLead?_two :
    ∀ n < 32, 2 ≤ n →
      Partial.ofLead? (UInt8.ofNat (n + 0xC0)) =
        some ⟨[UInt8.ofNat (n + 0xC0)], n, 1, 0x80, 0xBF⟩ := by
  decide

/-- The lead octet of three begins a sequence.  What follows it must not make
an overlong form or a surrogate. -/
theorem ofLead?_three :
    ∀ n < 16,
      Partial.ofLead? (UInt8.ofNat (n + 0xE0)) =
        some
          ⟨[UInt8.ofNat (n + 0xE0)], n, 2,
            if n = 0 then 0xA0 else 0x80,
            if n = 13 then 0x9F else 0xBF⟩ := by
  decide

/-- The lead octet of four begins a sequence.  What follows it must not make
an overlong form or a value beyond the last code point. -/
theorem ofLead?_four :
    ∀ n < 5,
      Partial.ofLead? (UInt8.ofNat (n + 0xF0)) =
        some
          ⟨[UInt8.ofNat (n + 0xF0)], n, 3,
            if n = 0 then 0x90 else 0x80,
            if n = 4 then 0x8F else 0xBF⟩ := by
  decide

/-! ## The segment of a character -/

section Character

variable (c : Char)

/-- A character is no surrogate, and not beyond the last code point. -/
theorem toNat_of_char :
    (c.toNat < 0xD800 ∨ 0xDFFF < c.toNat) ∧ c.toNat < 0x110000 := by
  have hvalid := c.valid
  simp only [UInt32.isValidChar, Nat.isValidChar] at hvalid
  simp only [Char.toNat]
  omega

/-- The encoding of a character by the size of its number. -/
theorem encode_cases :
    (c.toNat < 0x80 ∧
      String.utf8EncodeChar c = [UInt8.ofNat c.toNat]) ∨
    (0x80 ≤ c.toNat ∧ c.toNat < 0x800 ∧
      String.utf8EncodeChar c =
        [UInt8.ofNat (c.toNat / 64 + 0xC0), tail (c.toNat % 64)]) ∨
    (0x800 ≤ c.toNat ∧ c.toNat < 0x10000 ∧
      String.utf8EncodeChar c =
        [UInt8.ofNat (c.toNat / 4096 + 0xE0), tail (c.toNat / 64 % 64),
          tail (c.toNat % 64)]) ∨
    (0x10000 ≤ c.toNat ∧ c.toNat < 0x110000 ∧
      String.utf8EncodeChar c =
        [UInt8.ofNat (c.toNat / 262144 + 0xF0),
          tail (c.toNat / 4096 % 64), tail (c.toNat / 64 % 64),
          tail (c.toNat % 64)]) := by
  have hlast := (toNat_of_char c).2
  simp only [String.utf8EncodeChar, Char.toNat, tail] at hlast ⊢
  generalize c.val.toNat = v at hlast ⊢
  by_cases h1 : v ≤ 0x7F
  · exact Or.inl ⟨by omega, by simp [h1]⟩
  by_cases h2 : v ≤ 0x7FF
  · have hlead : v / 64 % 32 = v / 64 := by omega
    exact Or.inr (Or.inl ⟨by omega, by omega, by simp [h1, h2, hlead]⟩)
  by_cases h3 : v ≤ 0xFFFF
  · have hlead : v / 4096 % 16 = v / 4096 := by omega
    exact Or.inr (Or.inr (Or.inl
      ⟨by omega, by omega, by simp [h1, h2, h3, hlead]⟩))
  · have hlead : v / 262144 % 8 = v / 262144 := by omega
    exact Or.inr (Or.inr (Or.inr
      ⟨by omega, hlast, by simp [h1, h2, h3, hlead]⟩))

/-- The encoding of a character is cut off as its segment: it has no overlong form
after a lead of zero, and no surrogate after a lead of thirteen. -/
theorem segmentsFrom_encode
    (bs : Bytes) :
    segmentsFrom none (String.utf8EncodeChar c ++ bs) =
      .scalar c (String.utf8EncodeChar c) :: segmentsFrom none bs := by
  obtain ⟨hvalid, -⟩ := toNat_of_char c
  rcases encode_cases c with
    ⟨hlt, henc⟩ | ⟨hle, hlt, henc⟩ | ⟨hle, hlt, henc⟩ | ⟨hle, hlt, henc⟩
  · have hnat : (UInt8.ofNat c.toNat).toNat = c.toNat := by
      simp only [UInt8.toNat_ofNat']
      omega
    have hascii : UInt8.ofNat c.toNat < 0x80 := by
      simp only [UInt8.lt_iff_toNat_lt, hnat]
      exact hlt
    simp [henc, segmentsFrom, start, hascii, hnat]
  · have hvalue : c.toNat / 64 * 64 + c.toNat % 64 = c.toNat := by omega
    rw [henc, List.cons_append, List.cons_append, List.nil_append,
      segmentsFrom_lead (by omega) (by omega)
        (ofLead?_two (c.toNat / 64) (by omega) (by omega)),
      segmentsFrom_finish _ _ (by omega), hvalue, Char.ofNat_toNat]
    rfl
  · have hvalue :
        (c.toNat / 4096 * 64 + c.toNat / 64 % 64) * 64 + c.toNat % 64 =
          c.toNat := by
      omega
    have habove :
        UInt8.toNat (if c.toNat / 4096 = 0 then 0xA0 else 0x80) ≤
          c.toNat / 64 % 64 + 0x80 := by
      split
      · show 0xA0 ≤ _
        omega
      · exact Nat.le_add_left _ _
    have hbelow :
        c.toNat / 64 % 64 + 0x80 ≤
          UInt8.toNat (if c.toNat / 4096 = 13 then 0x9F else 0xBF) := by
      split
      · show _ ≤ 0x9F
        omega
      · show _ ≤ 0xBF
        omega
    rw [henc, List.cons_append, List.cons_append, List.cons_append,
      List.nil_append,
      segmentsFrom_lead (by omega) (by omega)
        (ofLead?_three (c.toNat / 4096) (by omega)),
      segmentsFrom_go_on _ _ 0 (by omega) habove hbelow,
      segmentsFrom_finish _ _ (by omega), hvalue, Char.ofNat_toNat]
    rfl
  · have hvalue :
        ((c.toNat / 262144 * 64 + c.toNat / 4096 % 64) * 64 +
            c.toNat / 64 % 64) * 64 + c.toNat % 64 =
          c.toNat := by
      omega
    have habove :
        UInt8.toNat (if c.toNat / 262144 = 0 then 0x90 else 0x80) ≤
          c.toNat / 4096 % 64 + 0x80 := by
      split
      · show 0x90 ≤ _
        omega
      · exact Nat.le_add_left _ _
    have hbelow :
        c.toNat / 4096 % 64 + 0x80 ≤
          UInt8.toNat (if c.toNat / 262144 = 4 then 0x8F else 0xBF) := by
      split
      · show _ ≤ 0x8F
        omega
      · show _ ≤ 0xBF
        omega
    have hrange : c.toNat / 64 % 64 + 0x80 ≤ UInt8.toNat 0xBF := by
      show _ ≤ 0xBF
      omega
    rw [henc, List.cons_append, List.cons_append, List.cons_append,
      List.cons_append, List.nil_append,
      segmentsFrom_lead (by omega) (by omega)
        (ofLead?_four (c.toNat / 262144) (by omega)),
      segmentsFrom_go_on _ _ 1 (by omega) habove hbelow,
      segmentsFrom_go_on _ _ 0 (by omega) (Nat.le_add_left _ _) hrange,
      segmentsFrom_finish _ _ (by omega), hvalue, Char.ofNat_toNat]
    rfl

/-- An ASCII octet stands only in the encoding of its own character, and alone
there, for all octets of longer encodings are beyond ASCII. -/
theorem encode_of_ascii_mem
    {b : UInt8}
    (ascii : b < 0x80)
    (mem : b ∈ String.utf8EncodeChar c) :
    c = Char.ofNat b.toNat ∧ String.utf8EncodeChar c = [b] := by
  have hascii : b.toNat < 0x80 := UInt8.lt_iff_toNat_lt.mp ascii
  have hbeyond : ∀ n < 256, 0x80 ≤ n → b ≠ UInt8.ofNat n := by
    rintro n hn hle rfl
    rw [UInt8.toNat_ofNat'] at hascii
    omega
  have htail : ∀ m < 64, b ≠ tail m := by
    intro m hm
    exact hbeyond (m + 0x80) (by omega) (Nat.le_add_left _ _)
  rcases encode_cases c with
    ⟨hlt, henc⟩ | ⟨hle, hlt, henc⟩ | ⟨hle, hlt, henc⟩ | ⟨hle, hlt, henc⟩
  · rw [henc, List.mem_singleton] at mem
    have hnat : b.toNat = c.toNat := by
      rw [mem, UInt8.toNat_ofNat']
      omega
    rw [hnat, Char.ofNat_toNat, henc, ← mem]
    exact ⟨rfl, rfl⟩
  · have hlead := hbeyond (c.toNat / 64 + 0xC0) (by omega) (by omega)
    have hfirst := htail (c.toNat % 64) (by omega)
    simp only [henc, List.mem_cons, List.not_mem_nil, hlead, hfirst,
      or_false] at mem
  · have hlead := hbeyond (c.toNat / 4096 + 0xE0) (by omega) (by omega)
    have hfirst := htail (c.toNat / 64 % 64) (by omega)
    have hsecond := htail (c.toNat % 64) (by omega)
    simp only [henc, List.mem_cons, List.not_mem_nil, hlead, hfirst, hsecond,
      or_false] at mem
  · have hlead := hbeyond (c.toNat / 262144 + 0xF0) (by omega) (by omega)
    have hfirst := htail (c.toNat / 4096 % 64) (by omega)
    have hsecond := htail (c.toNat / 64 % 64) (by omega)
    have hthird := htail (c.toNat % 64) (by omega)
    simp only [henc, List.mem_cons, List.not_mem_nil, hlead, hfirst, hsecond,
      hthird, or_false] at mem

end Character

/-- No two characters have their encodings at the front of the same octets. -/
theorem eq_of_encode_append
    {c d : Char} {bs cs : Bytes}
    (same : String.utf8EncodeChar c ++ bs = String.utf8EncodeChar d ++ cs) :
    c = d ∧ bs = cs := by
  have hsegs := segmentsFrom_encode c bs
  rw [same, segmentsFrom_encode d cs] at hsegs
  obtain rfl : c = d := (Segment.scalar.inj (List.cons.inj hsegs).1).1.symm
  exact ⟨rfl, List.append_cancel_left same⟩

/-! ## Octets that make up a character -/

/-- The octets after the lead octet of a character. -/
def IsTail (b : UInt8) : Prop :=
  0x80 ≤ b.toNat ∧ b.toNat ≤ 0xBF

/-- A continuation octet is told by its six bits. -/
theorem IsTail.eq_tail
    {b : UInt8}
    (is_tail : IsTail b) :
    b = tail (b.toNat % 64) := by
  obtain ⟨hlow, hhigh⟩ := is_tail
  rw [← UInt8.toNat_inj, toNat_tail (by omega)]
  omega

/-- The number of a character is the one it was made of. -/
theorem toNat_ofNat
    {v : Nat}
    (no_surrogate : v < 0xD800 ∨ 0xDFFF < v)
    (not_beyond : v < 0x110000) :
    (Char.ofNat v).toNat = v := by
  have hvalid : v.isValidChar := by
    simp only [Nat.isValidChar]
    omega
  rw [Char.ofNat, dif_pos hvalid]
  rfl

/-- An ASCII octet makes up a character. -/
theorem encode_one
    {b : UInt8}
    (ascii : b < 0x80) :
    String.utf8EncodeChar (Char.ofNat b.toNat) = [b] := by
  have hlt : b.toNat < 0x80 := UInt8.lt_iff_toNat_lt.mp ascii
  have hnat : (Char.ofNat b.toNat).toNat = b.toNat :=
    toNat_ofNat (by omega) (by omega)
  rcases encode_cases (Char.ofNat b.toNat) with
    ⟨-, henc⟩ | ⟨hle, -⟩ | ⟨hle, -⟩ | ⟨hle, -⟩
  · rw [henc, hnat, UInt8.ofNat_toNat]
  all_goals omega

section Tails

variable {n : Nat} {t u v : UInt8}

/-- A lead octet of two and a continuation octet make up a character. -/
theorem encode_two
    (beyond : 2 ≤ n) (lead : n < 32)
    (ht : IsTail t) :
    String.utf8EncodeChar (Char.ofNat (n * 64 + t.toNat % 64)) =
      [UInt8.ofNat (n + 0xC0), t] := by
  have hnat :
      (Char.ofNat (n * 64 + t.toNat % 64)).toNat = n * 64 + t.toNat % 64 :=
    toNat_ofNat (by omega) (by omega)
  generalize Char.ofNat (n * 64 + t.toNat % 64) = c at hnat
  have hlead : c.toNat / 64 = n := by omega
  have hlast : c.toNat % 64 = t.toNat % 64 := by omega
  rcases encode_cases c with
    ⟨hlt, -⟩ | ⟨-, -, henc⟩ | ⟨hle, -⟩ | ⟨hle, -⟩
  · omega
  · rw [henc, hlead, hlast, ← ht.eq_tail]
  · omega
  · omega

/-- So do a lead octet of three and two continuation octets, if they make neither
an overlong form nor a surrogate. -/
theorem encode_three
    (lead : n < 16)
    (not_overlong : n = 0 → 0xA0 ≤ t.toNat)
    (no_surrogate : n = 13 → t.toNat ≤ 0x9F)
    (ht : IsTail t) (hu : IsTail u) :
    String.utf8EncodeChar
        (Char.ofNat ((n * 64 + t.toNat % 64) * 64 + u.toNat % 64)) =
      [UInt8.ofNat (n + 0xE0), t, u] := by
  have hlow := ht.1
  have hhigh := ht.2
  have hnat :
      (Char.ofNat ((n * 64 + t.toNat % 64) * 64 + u.toNat % 64)).toNat =
        (n * 64 + t.toNat % 64) * 64 + u.toNat % 64 :=
    toNat_ofNat (by omega) (by omega)
  generalize
    Char.ofNat ((n * 64 + t.toNat % 64) * 64 + u.toNat % 64) = c at hnat
  have hlead : c.toNat / 4096 = n := by omega
  have hmiddle : c.toNat / 64 % 64 = t.toNat % 64 := by omega
  have hlast : c.toNat % 64 = u.toNat % 64 := by omega
  rcases encode_cases c with
    ⟨hlt, -⟩ | ⟨-, hlt, -⟩ | ⟨-, -, henc⟩ | ⟨hle, -⟩
  · omega
  · omega
  · rw [henc, hlead, hmiddle, hlast, ← ht.eq_tail, ← hu.eq_tail]
  · omega

/-- So do a lead octet of four and three continuation octets, if they make neither
an overlong form nor a value beyond the last code point. -/
theorem encode_four
    (lead : n < 5)
    (not_overlong : n = 0 → 0x90 ≤ t.toNat)
    (not_beyond : n = 4 → t.toNat ≤ 0x8F)
    (ht : IsTail t) (hu : IsTail u) (hv : IsTail v) :
    String.utf8EncodeChar
        (Char.ofNat
          (((n * 64 + t.toNat % 64) * 64 + u.toNat % 64) * 64 +
            v.toNat % 64)) =
      [UInt8.ofNat (n + 0xF0), t, u, v] := by
  have hlow := ht.1
  have hhigh := ht.2
  have hnat :
      (Char.ofNat
        (((n * 64 + t.toNat % 64) * 64 + u.toNat % 64) * 64 +
          v.toNat % 64)).toNat =
        ((n * 64 + t.toNat % 64) * 64 + u.toNat % 64) * 64 + v.toNat % 64 :=
    toNat_ofNat (by omega) (by omega)
  generalize
    Char.ofNat
      (((n * 64 + t.toNat % 64) * 64 + u.toNat % 64) * 64 +
        v.toNat % 64) = c at hnat
  have hlead : c.toNat / 262144 = n := by omega
  have hsecond : c.toNat / 4096 % 64 = t.toNat % 64 := by omega
  have hthird : c.toNat / 64 % 64 = u.toNat % 64 := by omega
  have hlast : c.toNat % 64 = v.toNat % 64 := by omega
  rcases encode_cases c with
    ⟨hlt, -⟩ | ⟨-, hlt, -⟩ | ⟨-, hlt, -⟩ | ⟨-, -, henc⟩
  · omega
  · omega
  · omega
  · rw [henc, hlead, hsecond, hthird, hlast, ← ht.eq_tail, ← hu.eq_tail,
      ← hv.eq_tail]

end Tails

/-! ## Texts -/

/-- The segments of an encoded text are those of its characters. -/
theorem segmentsFrom_ofChars
    (cs : List Char) (bs : Bytes) :
    segmentsFrom none (Bytes.ofChars cs ++ bs) =
      cs.map (fun c => .scalar c (String.utf8EncodeChar c)) ++
        segmentsFrom none bs := by
  induction cs with
  | nil => rfl
  | cons c rest ih =>
      rw [Bytes.ofChars_cons, List.append_assoc, segmentsFrom_encode, ih]
      rfl

/-- The segments of characters are all well-formed. -/
theorem mapM_scalar?
    (cs : List Char) :
    (cs.map fun c => Segment.scalar c (String.utf8EncodeChar c)).mapM
        Segment.scalar? =
      some cs := by
  induction cs with
  | nil => rfl
  | cons c rest ih =>
      rw [List.map_cons, List.mapM_cons, ih]
      rfl

/-- An encoded text is decoded to itself. -/
theorem decode?_ofChars
    (cs : List Char) :
    decode? (Bytes.ofChars cs) = some cs := by
  have hsegments := segmentsFrom_ofChars cs []
  rw [List.append_nil, segmentsFrom, List.append_nil] at hsegments
  rw [decode?, segments, hsegments, mapM_scalar?]

/-- An encoded text is shown as it is, whatever follows it. -/
theorem decodeLossy_ofChars_append
    (xs : List Char) (bs : Bytes) :
    decodeLossy (Bytes.ofChars xs ++ bs) = xs ++ decodeLossy bs := by
  rw [decodeLossy, segments, segmentsFrom_ofChars, List.map_append, List.map_map]
  congr 1
  exact List.map_id xs

/-- An encoded text is shown as it is. -/
theorem decodeLossy_ofChars
    (cs : List Char) :
    decodeLossy (Bytes.ofChars cs) = cs := by
  have happend := decodeLossy_ofChars_append cs []
  rw [List.append_nil] at happend
  exact happend.trans (List.append_nil cs)

/-- The octet of a line feed stands only in the encoding of a text with a line
feed. -/
theorem lineFeed_mem_of_mem_ofChars
    {cs : List Char}
    (mem : 0x0A ∈ Bytes.ofChars cs) :
    '\n' ∈ cs := by
  rw [Bytes.ofChars, List.mem_flatMap] at mem
  obtain ⟨c, hc, hoctet⟩ := mem
  obtain ⟨hfeed, -⟩ := encode_of_ascii_mem c (by decide) hoctet
  rw [hfeed] at hc
  exact hc

/-- Where an encoded text has an ASCII octet, the text has its character. -/
theorem split_ofChars
    {cs : List Char} {before behind : Bytes} {b : UInt8}
    (ascii : b < 0x80)
    (split : Bytes.ofChars cs = before ++ b :: behind) :
    ∃ xs ys,
      cs = xs ++ Char.ofNat b.toNat :: ys ∧
      before = Bytes.ofChars xs ∧
      behind = Bytes.ofChars ys := by
  induction cs generalizing before with
  | nil => simp [Bytes.ofChars] at split
  | cons c rest ih =>
      rw [Bytes.ofChars_cons, List.append_eq_append_iff] at split
      rcases split with ⟨more, hbefore, hrest⟩ | ⟨more, hencode, hmore⟩
      · obtain ⟨xs, ys, hcs, hxs, hys⟩ := ih hrest
        refine ⟨c :: xs, ys, by rw [hcs]; rfl, ?_, hys⟩
        rw [hbefore, hxs, Bytes.ofChars_cons]
      · cases more with
        | nil =>
            have hlater : Bytes.ofChars rest = [] ++ b :: behind := hmore.symm
            obtain ⟨xs, ys, hcs, hxs, hys⟩ := ih hlater
            refine ⟨c :: xs, ys, by rw [hcs]; rfl, ?_, hys⟩
            rw [Bytes.ofChars_cons, ← hxs, hencode, List.append_nil,
              List.append_nil]
        | cons d octets =>
            rw [List.cons_append, List.cons.injEq] at hmore
            obtain ⟨rfl, hbehind⟩ := hmore
            have hmem : b ∈ String.utf8EncodeChar c := by
              rw [hencode]
              simp
            obtain ⟨hchar, halone⟩ := encode_of_ascii_mem c ascii hmem
            rw [halone, List.singleton_eq_append_iff] at hencode
            rcases hencode with ⟨hnil, hone⟩ | ⟨-, hnone⟩
            · have hoctets : octets = [] := (List.cons.inj hone).2
              refine ⟨[], rest, by rw [← hchar]; rfl, hnil, ?_⟩
              rw [hbehind, hoctets]
              rfl
            · exact absurd hnone (List.cons_ne_nil _ _)

/-- Texts that are encoded alike are alike. -/
theorem ofChars_injective
    {cs ds : List Char}
    (same : Bytes.ofChars cs = Bytes.ofChars ds) :
    cs = ds := by
  have hdecoded := decode?_ofChars cs
  rw [same, decode?_ofChars ds] at hdecoded
  exact (Option.some.inj hdecoded).symm

end Utf8

end StreamServer
