import StreamServer.Connection

/-!
# Serving a connection

Two loops over a connection.  The first writes a payload to its end, the second echoes everything
that is read back to the peer until nothing more is read or something fails.  However the service
ends, the connection is first taken off the register, then closed, and only then is the permit under
which it was accepted given back.

A read of the service and a write of the service are also given by themselves, for those who are
interested in what can happen between them.
-/

namespace StreamServer

namespace Connection

variable {σ : Type} [Transport σ]

/-- Writes a payload to its end.  A write that takes nothing ends it with an error that quotes what is
left. -/
def writeAll (c : Connection) (t : σ) (data : Bytes) : Outcome σ (Except ConnectionError Unit) :=
  match data with
  | [] => ⟨.ok (), t, []⟩
  | b :: rest =>
      let o := c.write t (b :: rest)
      match o.result with
      | .error e => ⟨.error e, o.transport, o.trace⟩
      | .ok 0 =>
          ⟨.error (.writeFailed (preview (b :: rest) c.settings.previewLength.toNat)
              (.bare .writeZero)),
            o.transport, o.trace⟩
      | .ok (n + 1) => (c.writeAll o.transport (rest.drop n)).after o.trace
termination_by data.length
decreasing_by
  simp only [List.length_drop, List.length_cons]
  omega

theorem supply_sendThrough_le (h : Handle) (t : σ) (data : Bytes) :
    Transport.supply (sendThrough h t data).transport ≤ Transport.supply t := by
  fun_induction sendThrough h t data with
  | case1 t => exact Transport.supply_send_le t data
  | case2 t _ f _ again ih =>
      exact Nat.le_trans ih (Transport.supply_send_le t data)
  | case3 t => exact Transport.supply_send_le t data

theorem supply_write_le (c : Connection) (t : σ) (data : Bytes) :
    Transport.supply (c.write t data).transport ≤ Transport.supply t := by
  unfold write
  split
  · split
    · exact Nat.le_refl _
    · exact supply_sendThrough_le _ t data
  · exact Nat.le_refl _

theorem supply_writeAll_le (c : Connection) (t : σ) (data : Bytes) :
    Transport.supply (c.writeAll t data).transport ≤ Transport.supply t := by
  fun_induction writeAll c t data with
  | case1 t => exact Nat.le_refl _
  | case2 t b rest o e _ => exact supply_write_le c t (b :: rest)
  | case3 t b rest o _ => exact supply_write_le c t (b :: rest)
  | case4 t b rest o n _ ih => exact Nat.le_trans ih (supply_write_le c t (b :: rest))

theorem supply_receiveThrough_lt (h : Handle) (t : σ) (room : Nat) (f : Filled)
    (ok : (receiveThrough h t room).result = .ok f) (some_taken : f.taken room ≠ []) :
    Transport.supply (receiveThrough h t room).transport < Transport.supply t := by
  fun_induction receiveThrough h t room with
  | case1 t made g answer =>
      cases ok
      exact Transport.supply_receive_lt t room f answer some_taken
  | case2 t made g answer again ih =>
      exact Nat.lt_of_lt_of_le (ih ok) (Transport.supply_receive_le t room)
  | case3 => cases ok

theorem supply_read_lt (c : Connection) (t : σ) (wanted : Nat) (b : UInt8) (rest : Bytes)
    (ok : (c.read t wanted).result = .ok (b :: rest)) :
    Transport.supply (c.read t wanted).transport < Transport.supply t := by
  unfold read at ok ⊢
  split
  · next h _ _ =>
      simp only [*] at ok
      generalize hr : (receiveThrough h t (min wanted maxReadSize)).result = r at ok
      cases r with
      | ok f =>
          simp only [readResult, Except.ok.injEq] at ok
          exact supply_receiveThrough_lt h t _ f hr (by simp [ok])
      | error f =>
          simp only [readResult] at ok
          split at ok <;> cases ok
  · next h =>
      split at ok
      · next hs hh => exact absurd hh (h _ hs)
      · cases ok

/-- A record of the service. -/
def note (level : LogLevel) (message : String) (fields : List (String × LogValue)) : Act :=
  .log { level, source := .echo, message, fields }

/-- The record of a service that ends because something failed. -/
def complaint (c : Connection) (message : String) (e : ConnectionError) : Act :=
  note .warn message [("connection", .text c.shown), ("error", .text e.message)]

/-- The service reads: what is to be echoed now, or nothing if the service ends. -/
def echoRead (c : Connection) (t : σ) : Outcome σ (Option Bytes) :=
  let o := c.readDefault t
  match o.result with
  | .error e => ⟨none, o.transport, o.trace ++ [c.complaint "Read failed" e]⟩
  | .ok [] => ⟨none, o.transport, o.trace⟩
  | .ok (b :: rest) => ⟨some (b :: rest), o.transport, o.trace⟩

/-- The service writes once: what is left to be echoed, or nothing if the service ends. -/
def echoWrite (c : Connection) (t : σ) (data : Bytes) : Outcome σ (Option Bytes) :=
  let o := c.write t data
  match o.result with
  | .error e => ⟨none, o.transport, o.trace ++ [c.complaint "Write failed" e]⟩
  | .ok 0 =>
      let e :=
        .writeFailed (preview data c.settings.previewLength.toNat) (.bare .writeZero)
      ⟨none, o.transport, o.trace ++ [c.complaint "Write failed" e]⟩
  | .ok (n + 1) => ⟨some (data.drop (n + 1)), o.transport, o.trace⟩

/-- The service writes until nothing is left to be echoed.  It goes on if all was taken. -/
def echoAll (c : Connection) (t : σ) (data : Bytes) : Outcome σ Bool :=
  let o := c.writeAll t data
  match o.result with
  | .error e => ⟨false, o.transport, o.trace ++ [c.complaint "Write failed" e]⟩
  | .ok () => ⟨true, o.transport, o.trace⟩

/-- Reads once and echoes what was read.  The service goes on if something was read and all of it was
echoed. -/
def echoOnce (c : Connection) (t : σ) : Outcome σ Bool :=
  let reading := c.echoRead t
  match reading.result with
  | none => ⟨false, reading.transport, reading.trace⟩
  | some data => (c.echoAll reading.transport data).after reading.trace

theorem supply_echoRead_lt (c : Connection) (t : σ) (data : Bytes)
    (some_read : (c.echoRead t).result = some data) :
    Transport.supply (c.echoRead t).transport < Transport.supply t := by
  unfold echoRead at some_read ⊢
  cases reading : (c.readDefault t).result with
  | error e => simp [reading] at some_read
  | ok taken =>
      cases taken with
      | nil => simp [reading] at some_read
      | cons b rest =>
          simp only [reading]
          exact supply_read_lt c t _ b rest reading

theorem supply_echoAll_le (c : Connection) (t : σ) (data : Bytes) :
    Transport.supply (c.echoAll t data).transport ≤ Transport.supply t := by
  unfold echoAll
  cases writing : (c.writeAll t data).result with
  | error e =>
      simp only [writing]
      exact supply_writeAll_le c t data
  | ok =>
      simp only [writing]
      exact supply_writeAll_le c t data

theorem supply_echoOnce_lt (c : Connection) (t : σ) (goes_on : (c.echoOnce t).result = true) :
    Transport.supply (c.echoOnce t).transport < Transport.supply t := by
  unfold echoOnce at goes_on ⊢
  cases reading : (c.echoRead t).result with
  | none => simp [reading] at goes_on
  | some data =>
      simp only [reading]
      exact Nat.lt_of_le_of_lt (supply_echoAll_le c _ data) (supply_echoRead_lt c t data reading)

/-- Echoes what is read until nothing is read or something fails. -/
def echoLoop (c : Connection) (t : σ) : Outcome σ Unit :=
  let round := c.echoOnce t
  if _goes_on : round.result = true then (c.echoLoop round.transport).after round.trace
  else ⟨(), round.transport, round.trace⟩
termination_by Transport.supply t
decreasing_by exact supply_echoOnce_lt c t _goes_on

/-- The record of a service that begins. -/
def greeting (c : Connection) : Act :=
  note .debug "Serving connection" [("connection", .text c.shown)]

/-- Closes a connection at the end of its service; a problem is only remarked upon. -/
def leave (c : Connection) (t : σ) : Outcome σ Unit :=
  let closing := c.close t
  match closing.result with
  | .ok () => ⟨(), closing.transport, closing.trace⟩
  | .error e =>
      ⟨(), closing.transport,
        closing.trace ++ [note .debug "Close reported a problem" [("error", .text e.message)]]⟩

/-- Serves a connection to its end. -/
def serve (c : Connection) (t : σ) : Outcome σ Unit :=
  let o := (c.echoLoop t).after [c.greeting]
  let closing := c.leave o.transport
  ⟨(), closing.transport, o.trace ++ [.deregister c.id] ++ closing.trace ++ [.returnPermit]⟩

end Connection

end StreamServer
