import Mathlib
import StreamServer.Proofs.LineRun
import StreamServer.Transport.Script

/-!
# The life of a connection

A connection says in several ways whether it is open: by its handle, by its
state, by being valid, by the number it gives to a poller.  All of them say the
same in every run, and what they say is whether the connection has been closed.

What a connection was made with stays with it.  Once it is closed it refuses
every write, every read and every interrupter, each with an error of its own,
and does nothing.
-/

namespace StreamServer

namespace Connection

variable {σ : Type} [Transport σ]

/-- Every sign of an open connection is there, or none is. -/
structure ShowsOpen (c : Connection) (isOpen : Prop) : Prop where
  handle : c.handle.isSome = true ↔ isOpen
  state : c.state = .live ↔ isOpen
  valid : c.isValid = true ↔ isOpen
  polled : c.pollId? = some c.id ↔ isOpen
  unpolled : c.pollId? = none ↔ ¬ isOpen

/-- A connection that has just been made shows that it is open. -/
theorem MadeOf.showsOpen
    {c : Connection} {h : Handle} {settings : ConnectionSettings} {t : σ}
    (made : c.MadeOf h settings t)
    {isOpen : Prop}
    (yes : isOpen) :
    c.ShowsOpen isOpen := by
  have hlive := made.live
  have howns := made.owns
  constructor
  · simp [howns, yes]
  · simp [hlive, yes]
  · simp [isValid, hlive, howns, yes]
  · simp [pollId?, howns, yes]
  · simp [pollId?, howns, yes]

theorem showsOpen_ended
    (c : Connection)
    {isOpen : Prop}
    (no : ¬ isOpen) :
    c.ended.ShowsOpen isOpen := by
  constructor
  · simp [ended, no]
  · simp [ended, no]
  · simp [isValid, ended, no]
  · simp [pollId?, ended, no]
  · simp [pollId?, ended, no]

/-! ## What a closed connection answers -/

theorem write_ended
    (c : Connection) (t : σ) (data : Bytes) :
    c.ended.write t data =
      ⟨.error (.notLive (preview data c.settings.previewLength.toNat)),
        t, []⟩ := by
  rfl

theorem read_ended
    (c : Connection) (t : σ) (wanted : Nat) :
    c.ended.read t wanted = ⟨.error (.notLive ""), t, []⟩ := by
  rfl

/-- A delivery gets as far as its first write, if there is one. -/
theorem writeAll_ended
    (c : Connection) (t : σ) {data : Bytes}
    (some_data : data ≠ []) :
    c.ended.writeAll t data =
      ⟨.error (.notLive (preview data c.settings.previewLength.toNat)),
        t, []⟩ := by
  cases data with
  | nil => exact absurd rfl some_data
  | cons b rest =>
      unfold writeAll
      rw [write_ended]

theorem interrupter_ended
    (c : Connection) (t : σ) (serial : Nat) :
    c.ended.interrupter t serial =
      ⟨.error (.custom .notConnected "connection is closed"), t, []⟩ := by
  rfl

end Connection

namespace Line

variable {σ : Type} [Transport σ]

/-- A line whose connection refuses everything: each step on it answers with an
error, leaves the line as it is, and does nothing.  There is nothing to refuse
in the delivery of nothing. -/
structure Refuses (l : Line σ) (c : Connection) : Prop where
  write : ∀ data,
    l.step (.write data) =
      (.count (.error (.notLive
        (preview data c.settings.previewLength.toNat))), l, [])
  writeAll : ∀ data, data ≠ [] →
    l.step (.writeAll data) =
      (.done (.error (.notLive
        (preview data c.settings.previewLength.toNat))), l, [])
  writeNothing : l.step (.writeAll []) = (.done (.ok ()), l, [])
  read : ∀ wanted,
    l.step (.read wanted) = (.data (.error (.notLive "")), l, [])
  readDefault :
    l.step .readDefault = (.data (.error (.notLive "")), l, [])
  interrupter : ∃ f : Fault,
    f.kind = .notConnected ∧
    l.step .interrupter = (.interrupter (.error f), l, [])

theorem refuses_of_ended
    {l : Line σ} {c : Connection}
    (hc : l.connection = some c.ended) :
    l.Refuses c.ended := by
  constructor
  · intro data
    simp only [step, hc, onConnection, Connection.write_ended]
    rfl
  · intro data some_data
    simp only [step, hc, onConnection,
      Connection.writeAll_ended c l.transport some_data]
    rfl
  · simp only [step, hc, onConnection, Connection.writeAll]
    rfl
  · intro wanted
    simp only [step, hc, onConnection, Connection.read_ended]
    rfl
  · simp only [step, hc, onConnection, Connection.readDefault,
      Connection.read_ended]
    rfl
  · refine ⟨.custom .notConnected "connection is closed", rfl, ?_⟩
    simp only [step, hc, onConnection, Connection.interrupter_ended]
    rfl

/--
**The life of a connection** that was opened, over any transport and after any
run of steps that keeps it; so after every step of a run.

* Its handle, its state, its validity and the number it gives to a poller all
  say that it is open, or all say that it is not; and it is open exactly if it
  has not been closed.
* It still has the number and the peer that the transport gave when it was
  opened, and the settings it was opened with.
* No step but a close changes anything about it, whatever the step answers.
* Once closed it refuses every write with the beginning of the payload, every
  read and every interrupter, and then no call is made and no event emitted.
-/
theorem lifecycle_kept
    {number : Nat} {settings : ConnectionSettings} {t : σ}
    {l : Line σ} {opening : Trace}
    (opened : Line.open number settings t = (.ok (), l, opening))
    {steps : List LineStep}
    (kept : .drop ∉ steps) :
    ∃ c d,
      l.connection = some c ∧
      (l.run steps).1.connection = some d ∧
      d.ShowsOpen (.close ∉ steps) ∧
      (d.id = c.id ∧ d.origin = c.origin ∧ d.settings = c.settings) ∧
      (d.id = Transport.descriptor t ∧
        Transport.peer t = .ok d.origin ∧
        d.settings = settings) ∧
      (∀ s, .drop ≠ s → s ≠ .close →
        ((l.run steps).1.step s).2.1.connection = some d) ∧
      (.close ∈ steps → (l.run steps).1.Refuses d) := by
  obtain ⟨c, rfl, hmade, -⟩ := open_ok opened
  have hrun := connection_run (l := ⟨t, 1, some c, []⟩) rfl kept
  have hstill : ∀ d,
      (Line.run ⟨t, 1, some c, []⟩ steps).1.connection = some d →
      ∀ s, .drop ≠ s → s ≠ .close →
        ((Line.run ⟨t, 1, some c, []⟩ steps).1.step s).2.1.connection =
          some d := by
    intro d hd s hdrop hclose
    rw [connection_next hd hdrop, if_neg hclose]
  by_cases hclosed : .close ∈ steps
  · rw [if_pos hclosed] at hrun
    refine
      ⟨c, c.ended, rfl, hrun,
        c.showsOpen_ended (not_not_intro hclosed), ⟨rfl, rfl, rfl⟩,
        ⟨hmade.id_eq, hmade.origin_eq, hmade.settings_eq⟩,
        hstill _ hrun, ?_⟩
    intro _
    exact refuses_of_ended hrun
  · rw [if_neg hclosed] at hrun
    refine
      ⟨c, c, rfl, hrun, hmade.showsOpen hclosed, ⟨rfl, rfl, rfl⟩,
        ⟨hmade.id_eq, hmade.origin_eq, hmade.settings_eq⟩,
        hstill _ hrun, ?_⟩
    intro hin
    exact absurd hin hclosed

/-- A connection whose write and read fail stays open through both, and through
the use of its interrupter; it is closed badly, and then refuses. -/
theorem lifecycle_kept_closed_badly :
    let t : Script :=
      { descriptor := 42
        peer := .ok "203.0.113.5:51000"
        reads := [.fault (.system 104)]
        writes := [.error (.bare .brokenPipe)]
        shutdowns := [none, some (.system 32)] }
    let opened := Line.open 0 {} t
    let steps : List LineStep :=
      [.interrupter, .write [80, 73], .read 8, .interrupt 0,
        .dropInterrupter 0]
    let closing : List LineStep := steps ++ [.close, .close]
    opened = (.ok (), opened.2.1, opened.2.2) ∧
    .drop ∉ steps ∧ .close ∉ steps ∧
    .drop ∉ closing ∧ .close ∈ closing ∧
    (∃ d,
      (opened.2.1.run steps).1.connection = some d ∧
      d.isValid = true ∧ d.pollId? = some 42) ∧
    ∃ d,
      (opened.2.1.run closing).1.connection = some d ∧
      d.isValid = false ∧ d.pollId? = none ∧
      ((opened.2.1.run closing).1.step (.write [80, 73])).1 =
        .count (.error (.notLive "PI")) := by
  intro t opened steps closing
  obtain ⟨c, d, -, hd, hopen, -, ⟨hid, -⟩, -⟩ :=
    @lifecycle_kept Script _ 0 {} t opened.2.1 opened.2.2 rfl
      steps (by decide)
  obtain ⟨c', d', -, hd', hclosed, -, ⟨-, -, hsettings⟩, -, hrefuses⟩ :=
    @lifecycle_kept Script _ 0 {} t opened.2.1 opened.2.2 rfl
      closing (by decide)
  have hno : .close ∉ steps := by decide
  have hyes : .close ∈ closing := by decide
  refine
    ⟨rfl, by decide, hno, by decide, hyes,
      ⟨d, hd, hopen.valid.mpr hno, ?_⟩, d', hd', ?_, ?_, ?_⟩
  · rw [hopen.polled.mpr hno, hid]
    rfl
  · rw [Bool.eq_false_iff, ne_eq, hclosed.valid]
    exact not_not_intro hyes
  · exact hclosed.unpolled.mpr (not_not_intro hyes)
  · rw [(hrefuses hyes).write, hsettings]
    cbv

end Line

end StreamServer
