import StreamServer.Proofs.LineLog

/-!
# The log of lines is decoded

Over a writer that refuses nothing for good, a leaf that writes lines writes
each event on a line of its own.  What was written is decoded and cut into its
lines, and each line is read as the table of its event.

A line has no control characters, so it has no line feed, whatever characters
the texts of its event have; and the numbers of an event fit the integers that
are read.
-/

namespace StreamServer

/-! ## Events as tables -/

theorem Direction.word_injective
    {d d' : Direction}
    (same : d.word = d'.word) :
    d = d' := by
  cases d <;> cases d' <;> simp_all [word]

namespace Event

/-- Whether the numbers of an event have sixty-four bits. -/
def Fits : Event → Prop
  | .transfer _ _ bytes => bytes < UInt64.size
  | .closed id => id < UInt64.size
  | .closeFailed id _ => id < UInt64.size

instance : (e : Event) → Decidable e.Fits
  | .transfer _ _ bytes =>
      inferInstanceAs (Decidable (bytes < UInt64.size))
  | .closed id => inferInstanceAs (Decidable (id < UInt64.size))
  | .closeFailed id _ => inferInstanceAs (Decidable (id < UInt64.size))

/-- The table of an event is read back as it is printed. -/
theorem faithful_toValue
    {e : Event}
    (fits : e.Fits) :
    Json.Faithful Json.maxDepth e.toValue := by
  have htable : ∀ {entries : List (String × Value)},
      (∀ x ∈ entries, Json.Faithful 127 x.2) →
        Json.Faithful Json.maxDepth (.table entries) := Json.Faithful.table
  cases e with
  | transfer direction peer bytes =>
      refine htable ?_
      simp only [List.forall_mem_cons]
      exact ⟨.string _, .string _, .string _, .natural fits, by simp⟩
  | closed id =>
      refine htable ?_
      simp only [List.forall_mem_cons]
      exact ⟨.string _, .natural fits, by simp⟩
  | closeFailed id reason =>
      refine htable ?_
      simp only [List.forall_mem_cons]
      exact ⟨.string _, .natural fits, .string _, by simp⟩

/-- A line is read as the table of its event. -/
theorem parse?_line
    {e : Event}
    (fits : e.Fits) :
    Json.parse? (String.ofList e.line) = some e.toValue := by
  exact Json.parse?_text (faithful_toValue fits)

/-- The table of an event tells all of it. -/
theorem toValue_injective
    {e f : Event}
    (same : e.toValue = f.toValue) :
    e = f := by
  cases e with
  | transfer d peer bytes =>
      cases f with
      | transfer d' peer' bytes' =>
          simp only [toValue, Value.ofNat, Value.table.injEq,
            List.cons.injEq, Prod.mk.injEq, Value.string.injEq,
            Value.integer.injEq, Int.ofNat_inj] at same
          obtain ⟨-, ⟨-, hword⟩, ⟨-, rfl⟩, ⟨-, rfl⟩, -⟩ := same
          rw [Direction.word_injective hword]
      | closed _ | closeFailed _ _ => simp [toValue] at same
  | closed id =>
      cases f with
      | closed id' =>
          simp only [toValue, Value.ofNat, Value.table.injEq,
            List.cons.injEq, Prod.mk.injEq, Value.integer.injEq,
            Int.ofNat_inj] at same
          obtain ⟨-, ⟨-, rfl⟩, -⟩ := same
          rfl
      | transfer _ _ _ | closeFailed _ _ => simp [toValue] at same
  | closeFailed id reason =>
      cases f with
      | closeFailed id' reason' =>
          simp only [toValue, Value.ofNat, Value.table.injEq,
            List.cons.injEq, Prod.mk.injEq, Value.string.injEq,
            Value.integer.injEq, Int.ofNat_inj] at same
          obtain ⟨-, ⟨-, rfl⟩, ⟨-, rfl⟩, -⟩ := same
          rfl
      | transfer _ _ _ | closed _ => simp [toValue] at same

end Event

/-! ## Writers that take everything -/

namespace Writer

variable {ω : Type} [Writer ω]

/-- The writer after offers. -/
def offered (w : ω) (offers : List Bytes) : ω :=
  offers.foldl (fun u data => (offer u data).2) w

/-- A writer that refuses nothing for good: after any offers it takes some of
what it is offered, or it only breaks the call off. -/
def Accepting (w : ω) : Prop :=
  ∀ offers data, data ≠ [] →
    match (offer (offered w offers) data).1 with
    | .ok n => 0 < n
    | .error f => f.isInterrupted = true

namespace Accepting

variable {w : ω}

theorem after_offer
    (accepting : Accepting w)
    (data : Bytes) :
    Accepting (offer w data).2 := by
  intro offers
  exact accepting (data :: offers)

theorem after_writeAll
    (accepting : Accepting w)
    (data : Bytes) :
    (writeAll w data).1 = .ok () ∧ Accepting (writeAll w data).2 := by
  fun_induction writeAll w data with
  | case1 w => exact ⟨rfl, accepting⟩
  | case2 w b rest answered =>
      have htakes := accepting [] (b :: rest) (List.cons_ne_nil b rest)
      simp [offered, answered] at htakes
  | case3 w b rest n answered ih => exact ih (accepting.after_offer _)
  | case4 w b rest f answered again ih =>
      exact ih (accepting.after_offer _)
  | case5 w b rest f answered kept =>
      have htakes := accepting [] (b :: rest) (List.cons_ne_nil b rest)
      simp [offered, answered, kept] at htakes

theorem after_writeEach
    (accepting : Accepting w)
    (data : List Bytes) :
    (writeEach w data).1 = .ok () ∧ Accepting (writeEach w data).2 := by
  induction data generalizing w with
  | nil => exact ⟨rfl, accepting⟩
  | cons piece rest ih =>
      obtain ⟨hok, hnext⟩ := accepting.after_writeAll piece
      rw [writeEach]
      cases hwrite : writeAll w piece with
      | mk result u =>
          rw [hwrite] at hok hnext
          subst hok
          exact ih hnext

/-- Every attempt succeeds. -/
theorem attempts_succeed
    (accepting : Accepting w)
    (es : List Event) :
    ∀ a ∈ (attempts w es).1, ¬ a.Failed := by
  induction es generalizing w with
  | nil => simp [attempts]
  | cons e rest ih =>
      obtain ⟨hok, hnext⟩ := accepting.after_writeEach
        ((e.linePieces ++ [['\n']]).map Bytes.ofChars)
      intro a ha
      rcases List.mem_cons.mp ha with rfl | later
      · exact fun failed => failed hok
      · exact ih hnext a later

end Accepting

end Writer

namespace LimitedWriter

/-- A writer without a limit takes everything. -/
theorem accepting_of_unlimited
    {w : LimitedWriter}
    (unlimited : w.room = none) :
    Writer.Accepting w := by
  intro offers
  induction offers generalizing w with
  | nil =>
      intro data some_data
      have htakes : (Writer.offer w data).1 = .ok data.length := by
        simp [Writer.offer, LimitedWriter.offer, unlimited]
      show match (Writer.offer w data).1 with
        | .ok n => 0 < n
        | .error f => f.isInterrupted = true
      rw [htakes]
      exact List.length_pos_iff.mpr some_data
  | cons first rest ih =>
      refine ih (w := (Writer.offer w first).2) ?_
      simp [Writer.offer, LimitedWriter.offer, unlimited]

end LimitedWriter

/-! ## The log -/

/-- The text of a log: the line of each event, ended. -/
def logText (es : List Event) : List Char :=
  es.flatMap fun e => e.line ++ ['\n']

theorem pieces_logText
    (es : List Event) :
    pieces '\n' (logText es) = es.map Event.line ++ [[]] := by
  exact pieces_flatMap fun e _ => e.newline_not_mem_line

/-- The lines of a log are read as the tables of its events. -/
theorem parse?_logText
    {es : List Event}
    (fit : ∀ e ∈ es, e.Fits) :
    (endedBy '\n' (logText es)).map
        (fun l => Json.parse? (String.ofList l)) =
      es.map fun e => some e.toValue := by
  rw [endedBy, pieces_logText, List.dropLast_concat, List.map_map]
  exact List.map_congr_left fun e he => Event.parse?_line (fit e he)

/-- Different events have different logs. -/
theorem logText_injective
    {es fs : List Event}
    (fit : ∀ e ∈ es, e.Fits)
    (fit' : ∀ e ∈ fs, e.Fits)
    (same : logText es = logText fs) :
    es = fs := by
  have hread := parse?_logText fit
  rw [same, parse?_logText fit'] at hread
  have hinjective :
      Function.Injective fun e : Event => some e.toValue := fun _ _ h =>
    Event.toValue_injective (Option.some.inj h)
  exact (List.map_injective_iff.mpr hinjective hread).symm

/-- What attempts that all succeed have had taken is the log of their events. -/
theorem flatMap_taken_of_succeed
    {attempted : List Attempt}
    (sound : ∀ a ∈ attempted, a.Sound)
    (succeed : ∀ a ∈ attempted, ¬ a.Failed) :
    attempted.flatMap Attempt.taken =
      Bytes.ofChars (logText (attempted.map Attempt.event)) := by
  induction attempted with
  | nil => rfl
  | cons a rest ih =>
      have hrest := ih
        (fun b hb => sound b (List.mem_cons_of_mem a hb))
        (fun b hb => succeed b (List.mem_cons_of_mem a hb))
      have htaken : a.taken = Bytes.ofChars (a.event.line ++ ['\n']) := by
        rcases sound a List.mem_cons_self with ⟨-, hall⟩ | ⟨failed, -⟩
        · rw [hall, Bytes.ofChars_append]
          rfl
        · exact absurd failed (succeed a List.mem_cons_self)
      rw [List.flatMap_cons, hrest, htaken, ← Bytes.ofChars_append]
      rfl

namespace Board

variable {ω : Type} [Writer ω]

/--
**The log of lines is decoded to the events**, whatever characters their texts
have, over a writer that refuses nothing for good.

* Nothing is reported, and what the writer has taken in the end is what it had
  before and a text, in UTF-8.
* The text has one line for each event, in order; each is ended, and none has a
  line feed in it.
* Each line is read as the table of its event.
* Other events never leave the same behind, on whatever board.
-/
theorem lines_decode
    {w : ω}
    (accepting : Writer.Accepting w)
    {b : Board ω} {place : Nat}
    (there : b.leaf? place = some (.jsonLines w))
    {es : List Event}
    (fit : ∀ e ∈ es, e.Fits) :
    let left := b.relay (.leaf place) (es.map .emit)
    ∃ u taken text,
      left.1.leaf? place = some (.jsonLines u) ∧
      left.2 = [] ∧
      Writer.written u = Writer.written w ++ taken ∧
      Utf8.decode? taken = some text ∧
      pieces '\n' text = es.map Event.line ++ [[]] ∧
      (∀ e ∈ es, '\n' ∉ e.line) ∧
      (endedBy '\n' text).map (fun l => Json.parse? (String.ofList l)) =
        es.map (fun e => some e.toValue) ∧
      ∀ fs : List Event, (∀ f ∈ fs, f.Fits) →
        ∀ (c : Board ω) (place' : Nat) (w' u' : ω),
          Writer.Accepting w' →
          c.leaf? place' = some (.jsonLines w') →
          (c.relay (.leaf place') (fs.map .emit)).1.leaf? place' =
            some (.jsonLines u') →
          Writer.written u' = Writer.written w' ++ taken →
            fs = es := by
  intro left
  have hlog : ∀ {v : ω} (fs : List Event), Writer.Accepting v →
      Writer.written (attempts v fs).2 =
        Writer.written v ++ Bytes.ofChars (logText fs) := by
    intro v fs hv
    obtain ⟨hwritten, hsound, hevents⟩ := written_attempts v fs
    rw [hwritten,
      flatMap_taken_of_succeed hsound (hv.attempts_succeed fs), hevents]
  obtain ⟨hleaf, hseen⟩ := relay_jsonLines there es
  have hquiet : (attempts w es).1.flatMap Attempt.report = [] :=
    List.flatMap_eq_nil_iff.mpr fun a ha =>
      a.report_of_succeeded (accepting.attempts_succeed es a ha)
  refine ⟨(attempts w es).2, Bytes.ofChars (logText es), logText es,
    hleaf, hseen.trans hquiet, hlog es accepting, Utf8.decode?_ofChars _,
    pieces_logText es, fun e _ => e.newline_not_mem_line,
    parse?_logText fit, ?_⟩
  intro fs fit' c place' w' u' accepting' there' hleft htaken
  rw [(relay_jsonLines there' fs).1] at hleft
  cases hleft
  rw [hlog fs accepting'] at htaken
  have hsame := Utf8.ofChars_injective (List.append_cancel_left htaken)
  exact logText_injective fit' fit hsame

/-- Line ends, quotes, escapes, control characters and a character beyond the
basic plane in the texts, and the largest number. -/
theorem lines_decode_unusual :
    let es : List Event :=
      [.transfer .inbound "a\n\"\\\x01\t😀" 18446744073709551615,
        .closed 0,
        .closeFailed 7 "\r\n\"\x7d\n"]
    let b : Board LimitedWriter := { leaves := [.tracing, .jsonLines {}] }
    Writer.Accepting ({} : LimitedWriter) ∧
    b.leaf? 1 = some (.jsonLines {}) ∧
    (∀ e ∈ es, e.Fits) ∧
    ∃ u text,
      (b.relay (.leaf 1) (es.map .emit)).1.leaf? 1 =
        some (.jsonLines u) ∧
      Utf8.decode? u.kept = some text ∧
      (endedBy '\n' text).map (fun l => Json.parse? (String.ofList l)) =
        es.map fun e => some e.toValue := by
  intro es b
  have accepting := LimitedWriter.accepting_of_unlimited (w := {}) rfl
  have there : b.leaf? 1 = some (.jsonLines {}) := rfl
  have fit : ∀ e ∈ es, e.Fits := by decide
  obtain ⟨u, taken, text, hleaf, -, hwritten, hdecoded, -, -, hread, -⟩ :=
    lines_decode accepting there fit
  have hkept : u.kept = taken := hwritten
  exact ⟨accepting, there, fit, u, text, hleaf, hkept ▸ hdecoded, hread⟩

end Board

end StreamServer
