import StreamServer.Proofs.Transfer
import StreamServer.Session

/-!
# Runs of a line

Steps on one line, one after the other.  What becomes of the connection of a
line depends on the steps alone: closing ends it, dropping removes it, and no
other step touches it, whatever the transport answers.
-/

namespace StreamServer

namespace Connection

variable {σ : Type} [Transport σ]

@[simp] theorem ended_ended
    (c : Connection) :
    c.ended.ended = c.ended := by
  rfl

@[simp] theorem handle_ended
    (c : Connection) :
    c.ended.handle = none := by
  rfl

/-- What is known of a connection that was made of a handle: it is live, owns
that handle, and holds what the transport and the settings said. -/
structure MadeOf
    (c : Connection)
    (h : Handle)
    (settings : ConnectionSettings)
    (t : σ) : Prop where
  live : c.state = .live
  owns : c.handle = some h
  id_eq : c.id = Transport.descriptor t
  origin_eq : Transport.peer t = .ok c.origin
  settings_eq : c.settings = settings

/-- Making a connection asks for the peer once.  Without one the handle is given
back, and nothing else is done. -/
theorem adopt_cases
    (h : Handle) (settings : ConnectionSettings) (t : σ) :
    (∃ c r,
      MadeOf c h settings t ∧
      adopt h settings t =
        ⟨.ok c, t,
          [.call h (.peer (.ok c.origin)), .log r]⟩) ∨
    (∃ f,
      Transport.peer t = .error f ∧
      adopt h settings t =
        ⟨.error (.peerUnknown f), Transport.release t,
          [.call h (.peer (.error f)), .call h .release]⟩) := by
  unfold adopt
  cases hpeer : Transport.peer t with
  | error f => exact Or.inr ⟨f, rfl, rfl⟩
  | ok origin =>
      exact Or.inl
        ⟨_, _, ⟨rfl, rfl, rfl, hpeer, rfl⟩, rfl⟩

end Connection

namespace Line

variable {σ : Type} [Transport σ]

/-- A run of steps: the line after them, and what was done in all of them. -/
def run (l : Line σ) : List LineStep → Line σ × Trace
  | [] => (l, [])
  | s :: rest =>
      (((l.step s).2.1.run rest).1,
        (l.step s).2.2 ++ ((l.step s).2.1.run rest).2)

@[simp] theorem run_nil
    (l : Line σ) :
    l.run [] = (l, []) := by
  rfl

theorem run_cons
    (l : Line σ) (s : LineStep) (rest : List LineStep) :
    l.run (s :: rest) =
      (((l.step s).2.1.run rest).1,
        (l.step s).2.2 ++ ((l.step s).2.1.run rest).2) := by
  rfl

/-- Opening a line asks for the peer once.  Without one there is no connection,
the handle is given back, and nothing else is done. -/
theorem open_cases
    (number : Nat) (settings : ConnectionSettings) (t : σ) :
    (∃ c r,
      Connection.MadeOf c ⟨number, 0⟩ settings t ∧
      Line.open number settings t =
        (.ok (), ⟨t, 1, some c, []⟩,
          [.call ⟨number, 0⟩ (.peer (.ok c.origin)), .log r])) ∨
    (∃ f,
      Transport.peer t = .error f ∧
      Line.open number settings t =
        (.error (.peerUnknown f), ⟨Transport.release t, 1, none, []⟩,
          [.call ⟨number, 0⟩ (.peer (.error f)),
            .call ⟨number, 0⟩ .release])) := by
  unfold Line.open
  rcases Connection.adopt_cases ⟨number, 0⟩ settings t with
    ⟨c, r, hmade, hadopt⟩ | ⟨f, hpeer, hadopt⟩
  · rw [hadopt]
    exact Or.inl ⟨c, r, hmade, rfl⟩
  · rw [hadopt]
    exact Or.inr ⟨f, hpeer, rfl⟩

/-- A line that was opened has a connection made of its first handle, and
nothing was emitted for it. -/
theorem open_ok
    {number : Nat} {settings : ConnectionSettings} {t : σ}
    {l : Line σ} {opening : Trace}
    (opened : Line.open number settings t = (.ok (), l, opening)) :
    ∃ c,
      l = ⟨t, 1, some c, []⟩ ∧
      Connection.MadeOf c ⟨number, 0⟩ settings t ∧
      opening.events = [] := by
  rcases open_cases number settings t with
    ⟨c, r, hmade, hopen⟩ | ⟨f, -, hopen⟩
  · rw [hopen] at opened
    cases opened
    exact ⟨c, rfl, hmade, rfl⟩
  · rw [hopen] at opened
    cases opened

/-- What a step makes of the connection of a line. -/
theorem connection_step
    (l : Line σ) (s : LineStep) :
    (l.step s).2.1.connection =
      match s with
      | .close => l.connection.map Connection.ended
      | .drop => none
      | _ => l.connection := by
  cases hc : l.connection with
  | none =>
      cases s with
      | interrupt place =>
          simp only [step]
          split <;> simp [moved, hc]
      | dropInterrupter place =>
          simp only [step]
          split <;> simp [moved, hc]
      | _ => simp [step, hc]
  | some c =>
      cases s with
      | interrupt place =>
          simp only [step]
          split <;> simp [moved, hc]
      | dropInterrupter place =>
          simp only [step]
          split <;> simp [moved, hc]
      | interrupter =>
          simp only [step, hc, onConnection]
          split <;> simp [moved, hc]
      | _ => simp [step, hc, onConnection, moved]

/-- A step other than dropping it leaves a line its connection, and only
closing ends it. -/
theorem connection_next
    {l : Line σ} {c : Connection}
    (hc : l.connection = some c)
    {s : LineStep}
    (hs : .drop ≠ s) :
    (l.step s).2.1.connection =
      some (if s = .close then c.ended else c) := by
  rw [connection_step, hc]
  cases s with
  | drop => exact absurd rfl hs
  | _ => rfl

/-- What a run makes of the connection of a line. -/
theorem connection_run
    {l : Line σ} {c : Connection}
    (hc : l.connection = some c)
    {steps : List LineStep}
    (kept : .drop ∉ steps) :
    (l.run steps).1.connection =
      some (if .close ∈ steps then c.ended else c) := by
  induction steps generalizing l c with
  | nil => simpa using hc
  | cons s rest ih =>
      simp only [List.mem_cons, not_or] at kept
      obtain ⟨hs, hrest⟩ := kept
      rw [run_cons, ih (connection_next hc hs) hrest]
      by_cases hclose : s = .close
      · simp [hclose]
      · simp [hclose, Ne.symm hclose]

end Line

end StreamServer
