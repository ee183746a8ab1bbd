import StreamServer.Proofs.Encoding
import StreamServer.Proofs.JsonText
import StreamServer.Proofs.Pieces
import StreamServer.Proofs.Relay

/-!
# The log of lines

What a leaf that writes lines leaves behind at its writer.  An attempt to write
an event has some octets taken from the front of its line; with the end of the
line they are all taken just if nothing failed, for the end is written last and
alone.  So the octets that a writer has taken are put together from those of the
attempts, one after the other, and a line feed among them is the end of an
attempt that succeeded.
-/

namespace StreamServer

/-! ## Writers -/

namespace Writer

variable {ω : Type} [Writer ω]

/-- What was taken in an attempt to write octets: a prefix of them, and all of
them exactly if the attempt succeeded. -/
structure Takes
    (w : ω)
    (data : Bytes)
    (o : Except Fault Unit × ω)
    (share : Bytes) : Prop where
  written_eq : written o.2 = written w ++ share
  within : share <+: data
  ok_iff : o.1 = .ok () ↔ share = data

theorem takes_writeAll
    (w : ω) (data : Bytes) :
    ∃ share, Takes w data (writeAll w data) share := by
  fun_induction writeAll w data with
  | case1 w => exact ⟨[], by simp, List.nil_prefix, by simp⟩
  | case2 w b rest answered =>
      refine ⟨[], ?_, List.nil_prefix, by simp⟩
      have htaken := written_ok w (b :: rest) 0 answered
      rwa [List.take_zero] at htaken
  | case3 w b rest n answered ih =>
      obtain ⟨share, hshare⟩ := ih
      have htaken := written_ok w (b :: rest) (n + 1) answered
      have hsplit : (b :: rest).take (n + 1) ++ rest.drop n = b :: rest := by
        simp
      refine ⟨(b :: rest).take (n + 1) ++ share, ?_, ?_, ?_⟩
      · rw [hshare.written_eq, htaken, List.append_assoc]
      · obtain ⟨more, hmore⟩ := hshare.within
        exact ⟨more, by rw [List.append_assoc, hmore, hsplit]⟩
      · rw [hshare.ok_iff]
        constructor
        · rintro rfl
          exact hsplit
        · intro hall
          exact List.append_cancel_left (hall.trans hsplit.symm)
  | case4 w b rest f answered again ih =>
      obtain ⟨share, hshare⟩ := ih
      have htaken := written_error w (b :: rest) f answered
      exact ⟨share, by rw [hshare.written_eq, htaken], hshare.within,
        hshare.ok_iff⟩
  | case5 w b rest f answered kept =>
      have htaken := written_error w (b :: rest) f answered
      exact ⟨[], by simp [htaken], List.nil_prefix, by simp⟩

/-- A piece that fails ends the attempt; what was taken of it is less than the
piece. -/
theorem takes_writeEach
    (w : ω) (data : List Bytes) :
    ∃ share, Takes w data.flatten (writeEach w data) share := by
  induction data generalizing w with
  | nil => exact ⟨[], by simp [writeEach], List.nil_prefix, by simp [writeEach]⟩
  | cons piece rest ih =>
      obtain ⟨first, hfirst⟩ := takes_writeAll w piece
      rw [List.flatten_cons, writeEach]
      cases hwrite : writeAll w piece with
      | mk result u =>
          rw [hwrite] at hfirst
          cases result with
          | ok _ =>
              obtain ⟨share, hshare⟩ := ih u
              have hall : first = piece := hfirst.ok_iff.mp rfl
              subst hall
              refine ⟨first ++ share, ?_, ?_, ?_⟩
              · rw [hshare.written_eq, hfirst.written_eq,
                  List.append_assoc]
              · exact (List.prefix_append_right_inj first).mpr
                  hshare.within
              · rw [hshare.ok_iff, List.append_cancel_left_eq]
          | error f =>
              have hless : first ≠ piece := fun hall => by
                have := hfirst.ok_iff.mpr hall
                cases this
              refine ⟨first, hfirst.written_eq,
                hfirst.within.trans (List.prefix_append piece _), ?_⟩
              constructor
              · intro hok
                cases hok
              · intro hall
                have hlength := hfirst.within.length_le
                have hsame := congrArg List.length hall
                rw [List.length_append] at hsame
                exact absurd
                  (hfirst.within.eq_of_length (by omega)) hless

end Writer

/-! ## Attempts -/

namespace Event

/-- The octets of the line that records an event, without its end. -/
def lineOctets (e : Event) : Bytes :=
  Bytes.ofChars e.line

end Event

/-- The octet that ends a line. -/
def lineFeed : UInt8 :=
  0x0A

theorem flatten_map_ofChars
    (css : List (List Char)) :
    (css.map Bytes.ofChars).flatten = Bytes.ofChars css.flatten := by
  induction css with
  | nil => rfl
  | cons cs rest ih =>
      rw [List.map_cons, List.flatten_cons, List.flatten_cons, ih,
        Bytes.ofChars_append]

/-- An attempt to write an event: how it ended, and which octets of the line
were taken. -/
structure Attempt where
  event : Event
  result : Except Fault Unit
  taken : Bytes

namespace Attempt

/-- Whether the event was not written. -/
def Failed (a : Attempt) : Prop :=
  a.result ≠ .ok ()

instance (a : Attempt) : Decidable a.Failed :=
  match answered : a.result with
  | .ok () => isFalse fun failed => failed answered
  | .error _ => isTrue fun hok => nomatch answered.symm.trans hok

/-- What was taken of a line in an attempt: all of it with its end, or a prefix
without the end if the attempt failed. -/
def Sound (a : Attempt) : Prop :=
  (¬ a.Failed ∧ a.taken = a.event.lineOctets ++ [lineFeed]) ∨
  (a.Failed ∧ a.taken <+: a.event.lineOctets)

/-- What is logged of an attempt. -/
def report (a : Attempt) : Trace :=
  match a.result with
  | .ok () => []
  | .error f => [.log (writeFailure f)]

theorem report_of_succeeded
    {a : Attempt}
    (succeeded : ¬ a.Failed) :
    a.report = [] := by
  have hok : a.result = .ok () := not_not.mp succeeded
  rw [report, hok]

end Attempt

section Lines

variable {ω : Type} [Writer ω]

/-- The attempts to write events, one after the other, and the writer after
them. -/
def attempts (w : ω) : List Event → List Attempt × ω
  | [] => ([], w)
  | e :: rest =>
      let o := writeLine w e
      let more := attempts o.2 rest
      (⟨e, o.1, (Writer.written o.2).drop (Writer.written w).length⟩ ::
        more.1, more.2)

theorem takes_writeLine
    (w : ω) (e : Event) :
    ∃ share,
      Writer.Takes w (e.lineOctets ++ [lineFeed]) (writeLine w e) share := by
  have hpieces :
      ((e.linePieces ++ [['\n']]).map Bytes.ofChars).flatten =
        e.lineOctets ++ [lineFeed] := by
    rw [flatten_map_ofChars, List.flatten_append, Bytes.ofChars_append]
    rfl
  rw [← hpieces]
  exact Writer.takes_writeEach w _

/-- All but the end of a line is a prefix of its text. -/
theorem prefix_of_prefix_concat
    {α : Type} {xs ys : List α} {y : α}
    (within : xs <+: ys ++ [y])
    (less : xs ≠ ys ++ [y]) :
    xs <+: ys := by
  rcases List.prefix_concat_iff.mp within with h | h
  · exact absurd h less
  · exact h

/-- The writer has taken what the attempts have had taken. -/
theorem written_attempts
    (w : ω) (es : List Event) :
    Writer.written (attempts w es).2 =
        Writer.written w ++ (attempts w es).1.flatMap Attempt.taken ∧
      (∀ a ∈ (attempts w es).1, a.Sound) ∧
      (attempts w es).1.map Attempt.event = es := by
  induction es generalizing w with
  | nil => exact ⟨by simp [attempts], by simp [attempts], rfl⟩
  | cons e rest ih =>
      obtain ⟨hwritten, hsound, hevents⟩ := ih (writeLine w e).2
      obtain ⟨share, hshare⟩ := takes_writeLine w e
      have htaken :
          (Writer.written (writeLine w e).2).drop
              (Writer.written w).length =
            share := by
        rw [hshare.written_eq, List.drop_left]
      simp only [attempts, htaken]
      refine ⟨?written, ?sound, ?events⟩
      case written =>
        rw [hwritten, hshare.written_eq, List.flatMap_cons,
          List.append_assoc]
      case sound =>
        intro a ha
        rcases List.mem_cons.mp ha with rfl | later
        · by_cases hok : (writeLine w e).1 = .ok ()
          · exact Or.inl ⟨fun h => h hok, hshare.ok_iff.mp hok⟩
          · refine Or.inr ⟨hok, ?_⟩
            exact prefix_of_prefix_concat hshare.within
              (fun hall => hok (hshare.ok_iff.mpr hall))
        · exact hsound a later
      case events => rw [List.map_cons, hevents]

end Lines

namespace Board

variable {ω : Type} [Writer ω]

/-- A leaf that writes lines makes an attempt to write an event, and reports it
if it failed. -/
theorem emit_jsonLines
    {b : Board ω} {place : Nat} {w : ω}
    (there : b.leaf? place = some (.jsonLines w))
    (e : Event) :
    (b.emit e (.leaf place)).1.leaf? place =
        some (.jsonLines (writeLine w e).2) ∧
      (b.emit e (.leaf place)).2 =
        Attempt.report ⟨e, (writeLine w e).1, []⟩ := by
  simp only [emit, deliver, there]
  split <;> next hwrite =>
    rw [hwrite]
    exact ⟨leaf?_put there _, rfl⟩

/-- A leaf that writes lines makes an attempt for every event that it gets, and
what is seen of it are the reports. -/
theorem relay_jsonLines
    {b : Board ω} {place : Nat} {w : ω}
    (there : b.leaf? place = some (.jsonLines w))
    (es : List Event) :
    (b.relay (.leaf place) (es.map .emit)).1.leaf? place =
        some (.jsonLines (attempts w es).2) ∧
      (b.relay (.leaf place) (es.map .emit)).2 =
        (attempts w es).1.flatMap Attempt.report := by
  induction es generalizing b w with
  | nil => exact ⟨there, rfl⟩
  | cons e rest ih =>
      obtain ⟨hleaf, hreport⟩ := emit_jsonLines there e
      obtain ⟨hlast, hmore⟩ := ih hleaf
      simp only [List.map_cons, relay, attempts, List.flatMap_cons]
      exact ⟨hlast, by rw [hreport, hmore]; rfl⟩

end Board

/-! ## Lines -/

section Parts

variable {α : Type} [DecidableEq α]

/-- The parts of a list that a separator ends. -/
def endedBy (sep : α) (xs : List α) : List (List α) :=
  (pieces sep xs).dropLast

theorem endedBy_append
    {sep : α} {xs : List α}
    (absent : sep ∉ xs)
    (ys : List α) :
    endedBy sep (xs ++ ys) = (endedBy sep ys).modifyHead (xs ++ ·) := by
  rw [endedBy, endedBy, pieces_append absent]
  rcases pieces sep ys with _ | ⟨p, _ | ⟨q, ps⟩⟩ <;> rfl

/-- The first separator ends what stands before it. -/
theorem endedBy_append_cons
    {sep : α} {xs : List α}
    (absent : sep ∉ xs)
    (ys : List α) :
    endedBy sep (xs ++ sep :: ys) = xs :: endedBy sep ys := by
  rw [endedBy, pieces_append_cons absent,
    List.dropLast_cons_of_ne_nil (pieces_ne_nil sep ys)]
  rfl

end Parts

namespace Event

/-- The line of an event has no control characters. -/
theorem visible_line
    (e : Event) :
    Json.Visible e.line := by
  cases e with
  | transfer direction peer bytes | closed id | closeFailed id reason =>
      refine Json.visible_table ?_
      simp [Json.visible_string, Json.visible_ofNat]

theorem newline_not_mem_line
    (e : Event) :
    '\n' ∉ e.line := by
  intro mem
  exact absurd (e.visible_line '\n' mem) (by decide)

theorem lineFeed_not_mem_lineOctets
    (e : Event) :
    lineFeed ∉ e.lineOctets := by
  intro mem
  exact e.newline_not_mem_line (Utf8.lineFeed_mem_of_mem_ofChars mem)

end Event

end StreamServer
