import StreamServer.Connection.Error
import StreamServer.Proofs.Replacement

/-!
# Previews of payloads

An error of a write shows the first octets of the payload as text, whatever they are.
The preview is never much larger than what it shows.  Octets that are a text are shown as
they are, and a text that is cut off inside a character as far as its characters are
whole.  Of all other octets, those are replaced that the rule of replacement names.
-/

namespace StreamServer

/-- The encoding of what is shown. -/
theorem ofString_preview
    (data : Bytes) (limit : Nat) :
    Bytes.ofString (preview data limit) =
      Bytes.ofChars (Utf8.decodeLossy (data.take limit)) := by
  rw [Bytes.ofString, preview, String.toList_ofList]

/-- A preview is read back to the octets that it shows just if these are a text. -/
theorem ofString_preview_eq_iff
    (data : Bytes) (limit : Nat) :
    Bytes.ofString (preview data limit) = data.take limit ↔
      Utf8.WellFormed (data.take limit) := by
  rw [ofString_preview]
  constructor
  · intro same
    exact ⟨_, same.symm⟩
  · rintro ⟨cs, hcs⟩
    rw [hcs, Utf8.decodeLossy_ofChars]

/--
**A preview shows the start of a payload**, for any octets and any limit.  Let `p` be the
octets up to the limit.

* The preview has no more characters than `p` has octets, and its encoding no more than
  three times as many octets.
* Its encoding is `p` just if `p` is the encoding of a text.
* If the payload is a text, `p` fails to be one just if it ends inside a character.  Then
  the preview is the longest text that `p` begins with, and one replacement character.
* In any case `p` is cut into segments, one after another and with nothing left out, of
  which each is shown as one character: the encoding of a character, which is kept, or a
  maximal part that is ill-formed, which is replaced.  There is just one such cut.
-/
theorem preview_shows_start
    (data : Bytes) (limit : Nat) :
    let p := data.take limit
    let shown := preview data limit
    shown.length ≤ p.length ∧
    (Bytes.ofString shown).length ≤ 3 * p.length ∧
    (Bytes.ofString shown = p ↔ Utf8.WellFormed p) ∧
    (Utf8.WellFormed data →
      (¬ Utf8.WellFormed p ↔ ∃ xs, Utf8.EndsInside data limit xs)) ∧
    (∀ xs, Utf8.EndsInside data limit xs →
      Utf8.LongestText p xs ∧
        shown = String.ofList (xs ++ ['\uFFFD'])) ∧
    (∃ segs,
      (∀ others, Utf8.Cut p others ↔ others = segs) ∧
      segs.flatMap Utf8.Segment.octets = p ∧
      shown = String.ofList (segs.map Utf8.Segment.shown)) := by
  intro p shown
  have hcut : Utf8.Cut p (Utf8.segments p) := Utf8.cut_segments p
  refine ⟨?characters, ?octets, ofString_preview_eq_iff data limit,
    Utf8.not_wellFormed_take_iff, ?cut_off, ?rule⟩
  case characters =>
    have hlength : shown.length = (Utf8.segments p).length := by
      simp only [shown, preview, String.length_ofList, Utf8.decodeLossy,
        List.length_map, p]
    rw [hlength]
    exact hcut.length_le
  case octets =>
    rw [ofString_preview]
    exact hcut.length_ofChars_le
  case cut_off =>
    intro xs inside
    refine ⟨inside.longestText, ?_⟩
    simp only [shown, preview, inside.decodeLossy_take]
  case rule =>
    exact ⟨Utf8.segments p, fun others => Utf8.cut_iff, Utf8.segments_octets p, rfl⟩

/-- A text that is cut off after two of the three octets of its second character. -/
theorem preview_shows_start_cut_euro :
    let data : Bytes := Bytes.ofString "a€b"
    let p : Bytes := [0x61, 0xE2, 0x82]
    Utf8.WellFormed data ∧
    data.take 3 = p ∧
    Utf8.EndsInside data 3 ['a'] ∧
    Utf8.LongestText p ['a'] ∧
    preview data 3 = "a\uFFFD" ∧
    ¬ Utf8.WellFormed p ∧
    Utf8.Cut p
      [.scalar 'a' (String.utf8EncodeChar 'a'), .illFormed [0xE2, 0x82]] := by
  intro data p
  have well_formed : Utf8.WellFormed data := ⟨['a', '€', 'b'], rfl⟩
  have hstart : data.take 3 = p := rfl
  have inside : Utf8.EndsInside data 3 ['a'] :=
    ⟨'€', ['b'], rfl, by decide, by decide⟩
  obtain ⟨-, -, -, htorn, hcut_off, segs, hunique, -, -⟩ :=
    preview_shows_start data 3
  obtain ⟨hlongest, hshown⟩ := hcut_off ['a'] inside
  rw [hstart] at htorn hlongest hunique
  have hsegs : segs = Utf8.segments p :=
    ((hunique _).mp (Utf8.cut_segments p)).symm
  exact ⟨well_formed, hstart, inside, hlongest, hshown,
    (htorn well_formed).mpr ⟨['a'], inside⟩, (hunique _).mpr hsegs.symm⟩

end StreamServer
