import Mathlib
import StreamServer.Proofs.LineLog

/-!
# Torn lines

When a writer fails within a line, what it has taken of the line stays there,
and the next line goes on behind it.  So an end of line ends what was taken of
all attempts since the last end, and it ends the line of an event alone just if
nothing was taken of those that failed.

Such a line is torn for good: it is the line of no event at all.  A line begins
with the opening of a table and of a key that begins with an `e`, and nowhere
else in a line do these characters stand together, for a quote in a text is
escaped.
-/

namespace StreamServer

/-! ## The beginning of a line -/

namespace Json

/-- How a table is opened whose first key begins with an `e`. -/
def opening : List Char :=
  ['\x7b', '"', 'e']

/-- A text in which no such table is opened. -/
def Plain (s : List Char) : Prop :=
  ¬ opening <:+: s

theorem Plain.cons
    {c : Char} {s : List Char}
    (plain : Plain s)
    (other : c ≠ '\x7b' ∨ ¬ ['"', 'e'] <+: s) :
    Plain (c :: s) := by
  intro opens
  rcases List.infix_cons_iff.mp opens with first | later
  · rw [opening, List.cons_prefix_cons] at first
    rcases other with hne | hnot
    · exact hne first.1.symm
    · exact hnot first.2
  · exact plain later

theorem Plain.append
    {cs s : List Char}
    (plain : Plain s)
    (absent : '\x7b' ∉ cs) :
    Plain (cs ++ s) := by
  induction cs with
  | nil => exact plain
  | cons c rest ih =>
      rw [List.mem_cons, not_or] at absent
      exact (ih absent.2).cons (Or.inl (Ne.symm absent.1))

/-- A character is spelt by itself, or without a brace. -/
theorem escape_cases
    (c : Char) :
    escape c = [c] ∨ '\x7b' ∉ escape c := by
  have hhex : ∀ n < 16, '\x7b' ≠ Nat.digitChar n := by
    decide
  unfold escape
  iterate 7
    split
    · exact Or.inr (by decide)
  split
  · next control =>
      have hhigh := hhex (c.toNat / 16) (by omega)
      have hlow := hhex (c.toNat % 16) (by omega)
      exact Or.inr (by simp [hhigh, hlow])
  · exact Or.inl rfl

/-- No spelling begins with a quote. -/
theorem head?_escape_ne
    (c : Char) (s : List Char) :
    (escape c ++ s).head? ≠ some '"' := by
  unfold escape
  split
  · simp
  · next other =>
      iterate 6
        split
        · simp
      split
      · simp
      · simpa using other

/-- In a text with its end no such table is opened, and what begins in it is not
the rest of an opening. -/
theorem plain_body
    (cs : List Char)
    {s : List Char}
    (plain : Plain s)
    (no_key : s.head? ≠ some 'e') :
    Plain (cs.flatMap escape ++ '"' :: s) ∧
      ¬ ['"', 'e'] <+: cs.flatMap escape ++ '"' :: s := by
  induction cs with
  | nil =>
      refine ⟨plain.cons (Or.inl (by decide)), fun goes_on => no_key ?_⟩
      obtain ⟨more, hmore⟩ := (List.cons_prefix_cons.mp goes_on).2
      rw [← hmore]
      rfl
  | cons c rest ih =>
      obtain ⟨hrest, hnot⟩ := ih
      rw [List.flatMap_cons, List.append_assoc]
      constructor
      · rcases escape_cases c with hself | habsent
        · rw [hself]
          exact hrest.cons (Or.inr hnot)
        · exact hrest.append habsent
      · rintro ⟨more, hmore⟩
        refine head?_escape_ne c (rest.flatMap escape ++ '"' :: s) ?_
        rw [← hmore]
        rfl

theorem plain_printString
    (t : String)
    {s : List Char}
    (plain : Plain s)
    (no_key : s.head? ≠ some 'e') :
    Plain (printString t ++ s) := by
  have hbody := (plain_body t.toList plain no_key).1
  rw [printString, List.cons_append, List.cons_append, List.append_assoc]
  exact hbody.cons (Or.inl (by decide))

/-- A value in which no such table is opened, whatever follows it. -/
def PlainValue (v : Value) : Prop :=
  ∀ s, Plain s → s.head? ≠ some 'e' → Plain (print v ++ s)

theorem plainValue_string
    (t : String) :
    PlainValue (.string t) := by
  intro s plain no_key
  rw [print_string]
  exact plain_printString t plain no_key

theorem plainValue_ofNat
    (n : Nat) :
    PlainValue (.ofNat n) := by
  intro s plain no_key
  rw [print_ofNat]
  refine plain.append fun mem => ?_
  exact absurd (Digits.isDigit_of_mem_decimal mem) (by decide)

theorem plain_printPair
    {e : String × Value}
    (value : PlainValue e.2)
    {s : List Char}
    (plain : Plain s)
    (no_key : s.head? ≠ some 'e') :
    Plain (printPair e ++ s) := by
  have hvalue := (value s plain no_key).cons (c := ':') (Or.inl (by decide))
  rw [printPair, List.append_assoc]
  exact plain_printString e.1 hvalue (by simp)

/-- In the entries of a table after the first, and its end, no such table is
opened. -/
theorem plain_entries
    {entries : List (String × Value)}
    (values : ∀ e ∈ entries, PlainValue e.2) :
    Plain (entries.flatMap printEntry ++ ['\x7d']) ∧
      (entries.flatMap printEntry ++ ['\x7d']).head? ≠ some 'e' := by
  induction entries with
  | nil =>
      have hend : Plain ['\x7d'] :=
        Plain.cons (s := []) (by simp [Plain, opening])
          (Or.inl (by decide))
      exact ⟨hend, by simp⟩
  | cons e rest ih =>
      obtain ⟨hplain, hhead⟩ :=
        ih fun f hf => values f (List.mem_cons_of_mem e hf)
      have hpair := plain_printPair (values e List.mem_cons_self) hplain hhead
      rw [List.flatMap_cons, List.append_assoc]
      exact ⟨hpair.cons (Or.inl (by decide)), by simp [printEntry]⟩

/-- A printed table with plain values opens no such table after its first
character. -/
theorem plain_tail_table
    {entries : List (String × Value)}
    (values : ∀ e ∈ entries, PlainValue e.2) :
    Plain (print (.table entries)).tail := by
  cases entries with
  | nil => exact (@plain_entries [] (by simp)).1
  | cons e rest =>
      obtain ⟨hplain, hhead⟩ :=
        plain_entries fun f hf => values f (List.mem_cons_of_mem e hf)
      rw [print_table_cons]
      exact plain_printPair (values e List.mem_cons_self) hplain hhead

end Json

namespace Event

theorem opening_prefix_line
    (e : Event) :
    Json.opening <+: e.line := by
  cases e with
  | transfer direction peer bytes | closed id | closeFailed id reason =>
      rw [line, toValue, Json.print_table_cons]
      exact ⟨_, rfl⟩

/-- The beginning of a line stands nowhere else in a line. -/
theorem plain_tail_line
    (e : Event) :
    Json.Plain e.line.tail := by
  cases e with
  | transfer direction peer bytes | closed id | closeFailed id reason =>
      refine Json.plain_tail_table ?_
      simp [Json.plainValue_string, Json.plainValue_ofNat]

/-- Behind anything else, a line does not make a line. -/
theorem eq_nil_of_append_line
    {e f : Event} {xs : List Char}
    (joined : f.line = xs ++ e.line) :
    xs = [] := by
  cases xs with
  | nil => rfl
  | cons x rest =>
      refine absurd ?_ f.plain_tail_line
      rw [joined]
      exact e.opening_prefix_line.isInfix.trans
        (List.suffix_append rest e.line).isInfix

/-- What a line stands behind is no part of a line. -/
theorem eq_nil_of_append_lineOctets
    {e f : Event} {before : Bytes}
    (joined : before ++ e.lineOctets = f.lineOctets) :
    before = [] := by
  obtain ⟨more, hmore⟩ := e.opening_prefix_line
  have hfirst : e.line = '\x7b' :: ('"' :: 'e' :: more) := hmore.symm
  have hoctets : e.lineOctets = 0x7B :: Bytes.ofChars ('"' :: 'e' :: more) := by
    rw [lineOctets, hfirst]
    rfl
  rw [hoctets] at joined
  obtain ⟨xs, ys, hline, hbefore, hys⟩ :=
    Utf8.split_ofChars (by decide) joined.symm
  rw [← Utf8.ofChars_injective hys] at hline
  have hxs : xs = [] := by
    refine eq_nil_of_append_line (e := e) (f := f) ?_
    rw [hline, hfirst]
    rfl
  rw [hbefore, hxs]
  rfl

end Event

/-! ## Turns -/

/-- An attempt that succeeded, with those before it that failed since the last
that did. -/
structure Turn where
  lost : List Attempt
  kept : Attempt
  failed : ∀ a ∈ lost, a.Failed
  succeeded : ¬ kept.Failed

namespace Turn

/-- The attempts of a turn, in order. -/
def attempts (t : Turn) : List Attempt :=
  t.lost ++ [t.kept]

/-- What the end of the line ends: what was taken of the lost lines, and the
line that was kept. -/
def line (t : Turn) : Bytes :=
  t.lost.flatMap Attempt.taken ++ t.kept.event.lineOctets

/-- Whether nothing was taken of the lost lines. -/
def Whole (t : Turn) : Prop :=
  ∀ a ∈ t.lost, a.taken = []

/-- A turn that begins with one more attempt that failed. -/
def after (t : Turn) (a : Attempt) (failed : a.Failed) : Turn where
  lost := a :: t.lost
  kept := t.kept
  failed := List.forall_mem_cons.mpr ⟨failed, t.failed⟩
  succeeded := t.succeeded

/-- A turn of a single attempt. -/
def ofSucceeded (a : Attempt) (succeeded : ¬ a.Failed) : Turn where
  lost := []
  kept := a
  failed := by simp
  succeeded := succeeded

/-- A line is that of an event just if its turn is whole. -/
theorem line_of_whole
    {t : Turn}
    (whole : t.Whole) :
    t.line = t.kept.event.lineOctets := by
  have hnone : t.lost.flatMap Attempt.taken = [] :=
    List.flatMap_eq_nil_iff.mpr whole
  rw [line, hnone, List.nil_append]

theorem line_ne_of_not_whole
    {t : Turn}
    (torn : ¬ t.Whole)
    (e : Event) :
    t.line ≠ e.lineOctets := by
  intro same
  have hnone := Event.eq_nil_of_append_lineOctets same
  exact torn (List.flatMap_eq_nil_iff.mp hnone)

end Turn

namespace Attempt

/-- The attempts gathered into turns, and those after the last turn. -/
def gather : List Attempt → List Turn × List Attempt
  | [] => ([], [])
  | a :: rest =>
      if failed : a.Failed then
        match (gather rest).1 with
        | [] => ([], a :: (gather rest).2)
        | t :: more => (t.after a failed :: more, (gather rest).2)
      else (.ofSucceeded a failed :: (gather rest).1, (gather rest).2)

/-- No attempt is left out, and none after the last turn succeeded. -/
theorem gather_spec
    (made : List Attempt) :
    (gather made).1.flatMap Turn.attempts ++ (gather made).2 = made ∧
      ∀ a ∈ (gather made).2, a.Failed := by
  induction made with
  | nil => exact ⟨rfl, by simp [gather]⟩
  | cons a rest ih =>
      obtain ⟨hall, hlost⟩ := ih
      by_cases failed : a.Failed
      · cases hturns : (gather rest).1 with
        | nil =>
            have hrest : (gather rest).2 = rest := by
              rwa [hturns] at hall
            simp only [gather, failed, dif_pos, hturns]
            refine ⟨by rw [hrest]; rfl, ?_⟩
            exact List.forall_mem_cons.mpr ⟨failed, hlost⟩
        | cons t more =>
            simp only [gather, failed, dif_pos, hturns]
            refine ⟨?_, hlost⟩
            conv => rhs; rw [← hall, hturns]
            rfl
      · simp only [gather, failed, dif_neg, not_false_eq_true]
        refine ⟨?_, hlost⟩
        conv => rhs; rw [← hall]
        rfl

/-- What was taken of an attempt that failed has no line feed in it. -/
theorem Sound.lineFeed_not_mem
    {a : Attempt}
    (sound : a.Sound)
    (failed : a.Failed) :
    lineFeed ∉ a.taken := by
  rcases sound with ⟨succeeded, -⟩ | ⟨-, hwithin⟩
  · exact absurd failed succeeded
  · exact fun mem => a.event.lineFeed_not_mem_lineOctets (hwithin.subset mem)

/-- The ends of lines are those of the turns. -/
theorem endedBy_flatMap_taken
    {made : List Attempt}
    (sound : ∀ a ∈ made, a.Sound) :
    endedBy lineFeed (made.flatMap Attempt.taken) =
      (gather made).1.map Turn.line := by
  induction made with
  | nil => rfl
  | cons a rest ih =>
      obtain ⟨ha, hrest⟩ := List.forall_mem_cons.mp sound
      rw [List.flatMap_cons]
      by_cases failed : a.Failed
      · rw [endedBy_append (ha.lineFeed_not_mem failed), ih hrest]
        cases hturns : (gather rest).1 with
        | nil => simp [gather, failed, hturns]
        | cons t more =>
            simp [gather, failed, hturns, Turn.after, Turn.line]
      · rcases ha with ⟨-, htaken⟩ | ⟨hfailed, -⟩
        · rw [htaken, List.append_assoc, List.singleton_append,
            endedBy_append_cons a.event.lineFeed_not_mem_lineOctets, ih hrest]
          simp [gather, failed, Turn.ofSucceeded, Turn.line]
        · exact absurd hfailed failed

end Attempt

namespace Board

variable {ω : Type} [Writer ω]

/--
**What an end of line ends**, for any writer and any events.

* Every event is attempted in order.  What the writer has taken in the end is
  what it had before and what was taken of the attempts: of one that succeeded
  the line with its end, of one that failed a prefix of the line.  Just the
  failures are reported.
* The attempts come in turns: those that failed before one that succeeds, and
  that one.  After the last turn all failed.
* The ended lines are those of the turns, in order: what was taken of the lost
  lines, then the line that was kept.
* If nothing was taken of the lost lines of a turn, its line is that of its
  event.  Otherwise it is torn: it is the line of no event.
-/
theorem ended_lines
    {b : Board ω} {place : Nat} {w : ω}
    (there : b.leaf? place = some (.jsonLines w))
    (es : List Event) :
    let left := b.relay (.leaf place) (es.map .emit)
    let made := (attempts w es).1
    let turns := (Attempt.gather made).1
    let unended := (Attempt.gather made).2
    ∃ u,
      left.1.leaf? place = some (.jsonLines u) ∧
      left.2 = made.flatMap Attempt.report ∧
      Writer.written u =
        Writer.written w ++ made.flatMap Attempt.taken ∧
      (∀ a ∈ made, a.Sound) ∧
      made.map Attempt.event = es ∧
      turns.flatMap Turn.attempts ++ unended = made ∧
      (∀ a ∈ unended, a.Failed) ∧
      endedBy lineFeed (made.flatMap Attempt.taken) =
        turns.map Turn.line ∧
      ∀ t ∈ turns,
        (t.Whole → t.line = t.kept.event.lineOctets) ∧
        (¬ t.Whole → ∀ e : Event, t.line ≠ e.lineOctets) := by
  intro left made turns unended
  obtain ⟨hleaf, hseen⟩ := relay_jsonLines there es
  obtain ⟨hwritten, hsound, hevents⟩ := written_attempts w es
  obtain ⟨hall, hlost⟩ := Attempt.gather_spec made
  refine ⟨(attempts w es).2, hleaf, hseen, hwritten, hsound, hevents, hall,
    hlost, Attempt.endedBy_flatMap_taken hsound, ?_⟩
  intro t _
  exact ⟨Turn.line_of_whole, Turn.line_ne_of_not_whole⟩

/-- A writer that fails at the end of the first line and then takes everything:
the second event goes on the same line, the third has its own. -/
theorem ended_lines_two_on_one :
    let w : LimitedWriter :=
      { room := some 25
        fault := some (.system 28)
        recovers := true }
    let b : Board LimitedWriter := { leaves := [.jsonLines w] }
    let es : List Event := [.closed 1, .closed 2, .closed 3]
    let made := (attempts w es).1
    b.leaf? 0 = some (.jsonLines w) ∧
    endedBy lineFeed (made.flatMap Attempt.taken) =
      [(Event.closed 1).lineOctets ++ (Event.closed 2).lineOctets,
        (Event.closed 3).lineOctets] ∧
    ∀ e : Event,
      (Event.closed 1).lineOctets ++ (Event.closed 2).lineOctets ≠
        e.lineOctets := by
  intro w b es made
  have there : b.leaf? 0 = some (.jsonLines w) := rfl
  obtain ⟨u, -, -, -, -, -, -, -, hended, hturns⟩ := ended_lines there es
  have hmade : (Attempt.gather made).1.map
      (fun t => (t.line, t.lost.map Attempt.taken)) =
      [((Event.closed 1).lineOctets ++ (Event.closed 2).lineOctets,
          [(Event.closed 1).lineOctets]),
        ((Event.closed 3).lineOctets, [])] := by
    cbv
  refine ⟨there, ?ended, ?torn⟩
  case ended =>
    have hlines := congrArg (List.map Prod.fst) hmade
    rw [List.map_map] at hlines
    exact hended.trans hlines
  case torn =>
    obtain ⟨t, rest, hsplit, ht, -⟩ := List.map_eq_cons_iff.mp hmade
    obtain ⟨hline, hlost⟩ := Prod.mk.inj ht
    have hmem : (Event.closed 1).lineOctets ∈ t.lost.map Attempt.taken := by
      rw [hlost]
      exact List.mem_singleton_self _
    obtain ⟨a, ha, htaken⟩ := List.mem_map.mp hmem
    have htorn : ¬ t.Whole := fun whole =>
      absurd (htaken.symm.trans (whole a ha)) (by decide)
    have hfirst : t ∈ (Attempt.gather made).1 := by
      rw [hsplit]
      exact List.mem_cons_self
    rw [← hline]
    exact (hturns t hfirst).2 htorn

/-- A writer that fails after five octets and then takes everything: the one
line that is ended is that of no event. -/
theorem line_torn_by_failure :
    let w : LimitedWriter :=
      { room := some 5
        fault := some (.system 28)
        recovers := true }
    let b : Board LimitedWriter := { leaves := [.jsonLines w] }
    let es : List Event := [.closed 1, .closed 2]
    ∃ u,
      (b.relay (.leaf 0) (es.map .emit)).1.leaf? 0 =
        some (.jsonLines u) ∧
      endedBy lineFeed u.kept =
        [Bytes.ofChars ("\x7b\"eve".toList ++ (Event.closed 2).line)] ∧
      ∀ l ∈ endedBy lineFeed u.kept, ∀ e ∈ es, l ≠ e.lineOctets := by
  refine ⟨
    { kept := Bytes.ofChars
        ("\x7b\"eve".toList ++ (Event.closed 2).line ++ ['\n'])
      room := some 0
      fault := some (.system 28)
      recovers := true
      failed := true }, ?_, ?_, ?_⟩
  · cbv
  · cbv
  · decide

end Board

end StreamServer
