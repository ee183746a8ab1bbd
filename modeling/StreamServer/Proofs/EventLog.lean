import StreamServer.Proofs.Delivery
import StreamServer.Proofs.LineRun
import StreamServer.Proofs.Relay

/-!
# The log of a connection

The events of a connection are the image of what its calls return.  Each call
that returns has its events, told by its result alone, and the events of a run
are those of its calls, one after the other.  What is known about the results
of a run is therefore known about its events: when the word that the connection
is closed is among them, what comes after it, and how many octets they count.

A delivery is several writes, and each of them is told of.  The only call whose
events depend on more than its result is a close, and all that it depends on is
whether the connection was closed before.
-/

namespace StreamServer

namespace Event

def isClosed : Event → Bool
  | .closed _ => true
  | _ => false

def isTransfer : Event → Bool
  | .transfer .. => true
  | _ => false

/-- How many octets an event tells of, in one direction. -/
def octets (d : Direction) : Event → Nat
  | .transfer d' _ n => if d' = d then n else 0
  | _ => 0

end Event

/-- What a call on a connection returned.  For a close it is noted whether
there was one before. -/
inductive CallResult
  | wrote (r : Except ConnectionError Nat)
  | read (r : Except ConnectionError Bytes)
  | closed (again : Bool) (r : Except ConnectionError Unit)

namespace CallResult

/-- The events of a call that returned so. -/
def events (c : Connection) : CallResult → List Event
  | .wrote (.ok n) => [.transfer .outbound c.origin n]
  | .read (.ok data) => [.transfer .inbound c.origin data.length]
  | .closed false (.ok ()) => [.closed c.id]
  | .closed false (.error (.closeFailed id reason)) =>
      [.closeFailed id reason, .closed c.id]
  | .closed true (.error (.closeFailed id reason)) =>
      [.closeFailed id reason]
  | _ => []

/-- How many octets a call says that it moved, in one direction. -/
def octets : Direction → CallResult → Nat
  | .outbound, .wrote (.ok n) => n
  | .inbound, .read (.ok data) => data.length
  | _, _ => 0

def isTransfer : CallResult → Bool
  | .closed .. => false
  | _ => true

/-- The results that a connection gives once it is closed. -/
inductive Refused (c : Connection) : CallResult → Prop
  | write (e : ConnectionError) : Refused c (.wrote (.error e))
  | read (e : ConnectionError) : Refused c (.read (.error e))
  | close :
      Refused c
        (.closed true (.error (.closeFailed c.id "already closed")))

/-- A connection has the same events when it is closed. -/
@[simp] theorem events_ended
    (c : Connection) :
    events c.ended = events c := by
  funext r
  rcases r with (e | n) | (e | data) | ⟨_ | _, e | u⟩ <;> rfl

/-- The events of a transfer do not say that the connection is closed. -/
theorem isClosed_of_mem_events
    {c : Connection} {r : CallResult}
    (htransfer : r.isTransfer = true)
    {e : Event}
    (mem : e ∈ r.events c) :
    e.isClosed = false := by
  rcases r with (f | n) | (f | data) | ⟨again, r⟩
  · cases mem
  · rw [List.mem_singleton.mp mem]
    rfl
  · cases mem
  · rw [List.mem_singleton.mp mem]
    rfl
  · cases htransfer

/-- The events of a refusal tell of no transfer, nor that the connection is
closed. -/
theorem Refused.of_mem_events
    {c : Connection} {r : CallResult}
    (refused : Refused c r)
    {e : Event}
    (mem : e ∈ r.events c) :
    e.isTransfer = false ∧ e.isClosed = false := by
  cases refused with
  | write f => cases mem
  | read f => cases mem
  | close =>
      rw [List.mem_singleton.mp mem]
      exact ⟨rfl, rfl⟩

/-- The events of a call tell of the octets that it says it moved. -/
theorem sum_octets_events
    (c : Connection) (d : Direction) (r : CallResult) :
    ((r.events c).map (Event.octets d)).sum = r.octets d := by
  rcases r with (e | n) | (e | data) | ⟨_ | _, e | u⟩
  · cases d <;> rfl
  · cases d <;> simp [events, Event.octets, octets]
  · cases d <;> rfl
  · cases d <;> simp [events, Event.octets, octets]
  · cases e <;> cases d <;> rfl
  · cases d <;> rfl
  · cases e <;> cases d <;> rfl
  · cases d <;> rfl

theorem sum_octets_flatMap_events
    (c : Connection) (d : Direction) (rs : List CallResult) :
    ((rs.flatMap (events c)).map (Event.octets d)).sum =
      (rs.map (octets d)).sum := by
  induction rs with
  | nil => rfl
  | cons r rest ih =>
      rw [List.flatMap_cons, List.map_append, List.sum_append,
        sum_octets_events, ih, List.map_cons, List.sum_cons]

end CallResult

namespace Connection

variable {σ : Type} [Transport σ]
variable {c : Connection} {h : Handle}

/-! ## The events of one call -/

/-- A write tells of the count that it returns, and of nothing if it fails. -/
theorem events_write
    (c : Connection) (t : σ) (data : Bytes) :
    (c.write t data).trace.events =
      (CallResult.wrote (c.write t data).result).events c := by
  rcases write_cases c t data with
    ⟨-, hw⟩ | ⟨-, hw⟩ |
      ⟨h, answer, T, -, -, -, retried, hresult, htrace⟩
  · rw [hw]
    rfl
  · rw [hw]
    rfl
  · rw [htrace, hresult, Trace.events_append, retried.events_eq_nil,
      List.nil_append]
    cases c.writeResult data answer <;> rfl

/-- A read tells of the length of what it returns, and of nothing if it
fails. -/
theorem events_read
    (c : Connection) (t : σ) (wanted : Nat) :
    (c.read t wanted).trace.events =
      (CallResult.read (c.read t wanted).result).events c := by
  rcases read_cases c t wanted with
    ⟨-, hr⟩ | ⟨h, answer, T, -, -, retried, hresult, htrace⟩
  · rw [hr]
    rfl
  · rw [htrace, hresult, Trace.events_append, retried.events_eq_nil,
      List.nil_append]
    cases c.readResult wanted answer <;> rfl

/-- The first close tells that the connection is closed, and before that what
went wrong, which is what it returns. -/
theorem close_first
    (owns : c.handle = some h)
    (t : σ) :
    ((c.close t).result = .ok () ∧
      (c.close t).trace.events = [.closed c.id]) ∨
    (∃ reason,
      (c.close t).result = .error (.closeFailed c.id reason) ∧
      (c.close t).trace.events =
        [.closeFailed c.id reason, .closed c.id]) := by
  obtain
    ⟨_, ⟨hresult, htrace⟩ | ⟨hresult, _, htrace⟩ |
      ⟨reason, hresult, htrace⟩⟩ := close_cases owns t
  · exact Or.inl ⟨hresult, by rw [htrace]; rfl⟩
  · exact Or.inl ⟨hresult, by rw [htrace]; rfl⟩
  · exact Or.inr ⟨reason, hresult, by rw [htrace]; rfl⟩

/-- A close moves nothing. -/
theorem close_still
    (c : Connection) (t : σ) :
    (c.close t).trace.outflow = [] ∧
    (c.close t).trace.reads = [] := by
  cases owns : c.handle with
  | none =>
      rw [close_again owns]
      exact ⟨rfl, rfl⟩
  | some h =>
      obtain
        ⟨_, ⟨-, htrace⟩ | ⟨-, _, htrace⟩ | ⟨_, -, htrace⟩⟩ :=
          close_cases owns t
      · rw [htrace]
        exact ⟨rfl, rfl⟩
      · rw [htrace]
        exact ⟨rfl, rfl⟩
      · rw [htrace]
        exact ⟨rfl, rfl⟩

/-- A delivery tells of each of its writes. -/
theorem events_writeAll
    (c : Connection) (t : σ) (data : Bytes) :
    (c.writeAll t data).trace.events =
      (c.writesOf t data).flatMap fun o =>
        (CallResult.wrote o.result).events c := by
  have hpieces :
      (c.writeAll t data).trace.events =
        (c.writesOf t data).flatMap fun o => o.trace.events := by
    rw [trace_writeAll]
    exact List.filterMap_flatMap
  rw [hpieces, List.flatMap_def, List.flatMap_def]
  congr 1
  refine List.map_congr_left ?_
  intro o mem
  obtain ⟨u, offered, rfl⟩ := exists_write_of_mem_writesOf mem
  exact events_write c u offered

/-! ## The octets of one call -/

/-- A write says how much was taken. -/
theorem length_outflow_write
    (c : Connection) (t : σ) (data : Bytes) :
    (c.write t data).trace.outflow.length =
      (CallResult.wrote (c.write t data).result).octets .outbound := by
  cases hresult : (c.write t data).result with
  | error e =>
      rw [outflow_write_error hresult]
      rfl
  | ok n =>
      obtain ⟨hle, htook⟩ := write_ok hresult
      rw [htook, List.length_take, Nat.min_eq_left hle]
      rfl

/-- The writes of a delivery say how much was taken. -/
theorem length_outflow_writeAll
    (c : Connection) (t : σ) (data : Bytes) :
    (c.writeAll t data).trace.outflow.length =
      ((c.writesOf t data).map fun o =>
        (CallResult.wrote o.result).octets .outbound).sum := by
  have hpieces :
      (c.writeAll t data).trace.outflow =
        (c.writesOf t data).flatMap fun o => o.trace.outflow := by
    rw [trace_writeAll]
    exact List.flatMap_assoc
  rw [hpieces, List.length_flatMap]
  congr 1
  refine List.map_congr_left ?_
  intro o mem
  obtain ⟨u, offered, rfl⟩ := exists_write_of_mem_writesOf mem
  exact length_outflow_write c u offered

/-- A read returns as much as was brought. -/
theorem length_inflow_read
    (c : Connection) (t : σ) (wanted : Nat) :
    (c.read t wanted).trace.inflow.length =
      (CallResult.read (c.read t wanted).result).octets .inbound := by
  cases hresult : (c.read t wanted).result with
  | error e =>
      rw [Trace.inflow_of_reads_nil (reads_read_error hresult)]
      rfl
  | ok data =>
      rw [inflow_read_ok hresult]
      rfl

end Connection

namespace Line

variable {σ : Type} [Transport σ]

/-! ## Runs -/

/-- What the calls of a step return; `again` says whether the connection was
closed before. -/
def resultsOf (l : Line σ) (again : Bool) (s : LineStep) :
    List CallResult :=
  match l.connection, s, (l.step s).1 with
  | some c, .writeAll data, _ =>
      (c.writesOf l.transport data).map fun o => .wrote o.result
  | _, .close, .done r => [.closed again r]
  | _, _, .count r => [.wrote r]
  | _, _, .data r => [.read r]
  | _, _, _ => []

/-- What the calls of a run return, in order. -/
def results (l : Line σ) (again : Bool) :
    List LineStep → List CallResult
  | [] => []
  | s :: rest =>
      l.resultsOf again s ++
        (l.step s).2.1.results (again || decide (s = .close)) rest

/-- The calls of a step: one on the connection, the writes of a delivery, or
none that returns anything of interest here. -/
inductive Calls
    (l : Line σ)
    (again : Bool) :
    LineStep → List CallResult → Trace → Prop
  | write
      {c : Connection} (data : Bytes)
      (hc : l.connection = some c) :
      Calls l again (.write data)
        [.wrote (c.write l.transport data).result]
        (c.write l.transport data).trace
  | writeAll
      {c : Connection} (data : Bytes)
      (hc : l.connection = some c) :
      Calls l again (.writeAll data)
        ((c.writesOf l.transport data).map fun o => .wrote o.result)
        (c.writeAll l.transport data).trace
  | read
      {c : Connection} (wanted : Nat)
      {s : LineStep}
      (hc : l.connection = some c)
      (hs : s ≠ .close) :
      Calls l again s
        [.read (c.read l.transport wanted).result]
        (c.read l.transport wanted).trace
  | close
      {c : Connection}
      (hc : l.connection = some c) :
      Calls l again .close
        [.closed again (c.close l.transport).result]
        (c.close l.transport).trace
  | other
      {s : LineStep} {T : Trace}
      (hs : l.connection = none ∨ s ≠ .close)
      (hevents : T.events = [])
      (hout : T.outflow = [])
      (hreads : T.reads = []) :
      Calls l again s [] T

theorem calls_step
    (l : Line σ) (again : Bool) (s : LineStep) :
    Calls l again s (l.resultsOf again s) (l.step s).2.2 := by
  cases hc : l.connection with
  | none =>
      cases s with
      | interrupt place =>
          simp only [resultsOf, step, hc]
          cases l.interrupter? place <;>
            exact .other (Or.inl hc) rfl rfl rfl
      | dropInterrupter place =>
          simp only [resultsOf, step, hc]
          cases l.interrupter? place <;>
            exact .other (Or.inl hc) rfl rfl rfl
      | _ =>
          simp only [resultsOf, step, hc]
          exact .other (Or.inl hc) rfl rfl rfl
  | some c =>
      cases s with
      | write data =>
          simp only [resultsOf, step, hc, onConnection]
          exact .write data hc
      | writeAll data =>
          simp only [resultsOf, step, hc, onConnection]
          exact .writeAll data hc
      | read wanted =>
          simp only [resultsOf, step, hc, onConnection]
          exact .read wanted hc (by simp)
      | readDefault =>
          simp only [resultsOf, step, hc, onConnection]
          exact .read _ hc (by simp)
      | close =>
          simp only [resultsOf, step, hc, onConnection]
          exact .close hc
      | drop =>
          simp only [resultsOf, step, hc, onConnection,
            Connection.drop]
          cases c.handle <;>
            exact .other (Or.inr (by simp)) rfl rfl rfl
      | interrupter =>
          simp only [resultsOf, step, hc, onConnection,
            Connection.interrupter]
          cases c.handle with
          | none => exact .other (Or.inr (by simp)) rfl rfl rfl
          | some h =>
              cases (Transport.duplicate l.transport).1 <;>
                exact .other (Or.inr (by simp)) rfl rfl rfl
      | interrupt place =>
          simp only [resultsOf, step, hc]
          cases l.interrupter? place <;>
            exact .other (Or.inr (by simp)) rfl rfl rfl
      | dropInterrupter place =>
          simp only [resultsOf, step, hc]
          cases l.interrupter? place <;>
            exact .other (Or.inr (by simp)) rfl rfl rfl

namespace Calls

variable {l : Line σ} {c : Connection} {again : Bool}
variable {s : LineStep} {rs : List CallResult} {T : Trace}

/-- The events of a step are those of its calls. -/
theorem events_eq
    (hc : l.connection = some c)
    (hagain : again = c.handle.isNone)
    (calls : Calls l again s rs T) :
    T.events = rs.flatMap (CallResult.events c) := by
  cases calls with
  | write data hc' =>
      cases hc.symm.trans hc'
      rw [List.flatMap_singleton]
      exact Connection.events_write c _ data
  | writeAll data hc' =>
      cases hc.symm.trans hc'
      rw [List.flatMap_map]
      exact Connection.events_writeAll c _ data
  | read wanted hc' _ =>
      cases hc.symm.trans hc'
      rw [List.flatMap_singleton]
      exact Connection.events_read c _ wanted
  | close hc' =>
      cases hc.symm.trans hc'
      rw [List.flatMap_singleton, hagain]
      cases howns : c.handle with
      | none =>
          rw [Connection.close_again howns]
          rfl
      | some h =>
          rcases Connection.close_first howns l.transport with
            ⟨hresult, hevents⟩ | ⟨reason, hresult, hevents⟩
          · rw [hresult, hevents]
            rfl
          · rw [hresult, hevents]
            rfl
  | other _ hevents _ _ => exact hevents

/-- What is taken in a step is what its calls say. -/
theorem length_outflow
    (calls : Calls l again s rs T) :
    T.outflow.length =
      (rs.map (CallResult.octets .outbound)).sum := by
  cases calls with
  | write data _ =>
      rw [List.map_singleton, List.sum_singleton]
      exact Connection.length_outflow_write _ _ data
  | writeAll data _ =>
      rw [List.map_map]
      exact Connection.length_outflow_writeAll _ _ data
  | read wanted _ _ =>
      rw [Connection.outflow_read]
      rfl
  | close _ =>
      rw [(Connection.close_still _ _).1]
      rfl
  | other _ _ hout _ =>
      rw [hout]
      rfl

/-- What is brought in a step is what its calls say. -/
theorem length_inflow
    (calls : Calls l again s rs T) :
    T.inflow.length =
      (rs.map (CallResult.octets .inbound)).sum := by
  cases calls with
  | write data _ =>
      rw [Trace.inflow_of_reads_nil (Connection.reads_write _ _ data)]
      rfl
  | writeAll data _ =>
      rw [Trace.inflow_of_reads_nil
        (Connection.reads_writeAll _ _ data), List.map_map]
      symm
      rw [List.length_nil, List.sum_eq_zero_iff_forall_eq_nat]
      intro n mem
      obtain ⟨o, -, rfl⟩ := List.mem_map.mp mem
      rfl
  | read wanted _ _ =>
      rw [List.map_singleton, List.sum_singleton]
      exact Connection.length_inflow_read _ _ wanted
  | close _ =>
      rw [Trace.inflow_of_reads_nil (Connection.close_still _ _).2]
      rfl
  | other _ _ _ hreads =>
      rw [Trace.inflow_of_reads_nil hreads]
      rfl

/-- Only a close returns what a close does. -/
theorem isTransfer_of_mem
    (calls : Calls l again s rs T)
    (hs : s ≠ .close)
    {r : CallResult}
    (mem : r ∈ rs) :
    r.isTransfer = true := by
  cases calls with
  | write data _ =>
      rw [List.mem_singleton.mp mem]
      rfl
  | writeAll data _ =>
      obtain ⟨o, -, rfl⟩ := List.mem_map.mp mem
      rfl
  | read wanted _ _ =>
      rw [List.mem_singleton.mp mem]
      rfl
  | close _ => exact absurd rfl hs
  | other => cases mem

/-- A close is one call. -/
theorem results_close
    (hc : l.connection = some c)
    (calls : Calls l again .close rs T) :
    rs = [.closed again (c.close l.transport).result] := by
  cases calls with
  | read wanted _ hs => exact absurd rfl hs
  | close hc' =>
      cases hc.symm.trans hc'
      rfl
  | other hs _ _ _ =>
      rcases hs with hnone | hs
      · rw [hc] at hnone
        cases hnone
      · exact absurd rfl hs

/-- Once the connection is closed, every call is refused. -/
theorem refused_of_mem
    (hc : l.connection = some c.ended)
    (calls : Calls l true s rs T)
    {r : CallResult}
    (mem : r ∈ rs) :
    CallResult.Refused c r := by
  cases calls with
  | write data hc' =>
      cases hc.symm.trans hc'
      rw [List.mem_singleton.mp mem]
      exact .write _
  | writeAll data hc' =>
      cases hc.symm.trans hc'
      obtain ⟨o, ho, rfl⟩ := List.mem_map.mp mem
      obtain ⟨u, offered, rfl⟩ :=
        Connection.exists_write_of_mem_writesOf ho
      exact .write _
  | read wanted hc' _ =>
      cases hc.symm.trans hc'
      rw [List.mem_singleton.mp mem]
      exact .read _
  | close hc' =>
      cases hc.symm.trans hc'
      rw [List.mem_singleton.mp mem]
      exact .close
  | other => cases mem

end Calls

theorem events_run
    {l : Line σ} {c : Connection}
    (hc : l.connection = some c)
    {steps : List LineStep}
    (kept : .drop ∉ steps) :
    (l.run steps).2.events =
      (l.results c.handle.isNone steps).flatMap
        (CallResult.events c) := by
  induction steps generalizing l c with
  | nil => rfl
  | cons s rest ih =>
      simp only [List.mem_cons, not_or] at kept
      obtain ⟨hs, hrest⟩ := kept
      have hnow :=
        (calls_step l c.handle.isNone s).events_eq hc rfl
      rw [run_cons, Trace.events_append, hnow, results,
        List.flatMap_append]
      congr 1
      rw [ih (connection_next hc hs) hrest]
      by_cases hclose : s = .close
      · simp [hclose]
      · simp [hclose]

theorem length_outflow_run
    (l : Line σ) (again : Bool) (steps : List LineStep) :
    (l.run steps).2.outflow.length =
      ((l.results again steps).map
        (CallResult.octets .outbound)).sum := by
  induction steps generalizing l again with
  | nil => rfl
  | cons s rest ih =>
      rw [run_cons, Trace.outflow_append, List.length_append,
        (calls_step l again s).length_outflow, ih, results,
        List.map_append, List.sum_append]

theorem length_inflow_run
    (l : Line σ) (again : Bool) (steps : List LineStep) :
    (l.run steps).2.inflow.length =
      ((l.results again steps).map
        (CallResult.octets .inbound)).sum := by
  induction steps generalizing l again with
  | nil => rfl
  | cons s rest ih =>
      rw [run_cons, Trace.inflow_append, List.length_append,
        (calls_step l again s).length_inflow, ih, results,
        List.map_append, List.sum_append]

/-- Once the connection is closed, every call of a run is refused. -/
theorem refused_of_mem_results
    {l : Line σ} {c : Connection}
    (hc : l.connection = some c.ended)
    {steps : List LineStep}
    (kept : .drop ∉ steps)
    {r : CallResult}
    (mem : r ∈ l.results true steps) :
    CallResult.Refused c r := by
  induction steps generalizing l with
  | nil => cases mem
  | cons s rest ih =>
      simp only [List.mem_cons, not_or] at kept
      obtain ⟨hs, hrest⟩ := kept
      rw [results, Bool.true_or, List.mem_append] at mem
      rcases mem with hnow | hlater
      · exact (calls_step l true s).refused_of_mem hc hnow
      · refine ih ?_ hrest hlater
        rw [connection_next hc hs, Connection.ended_ended, ite_self]

/-- The results of a run: transfers only, unless the connection is closed, and
then transfers, the first close, and after it refusals only.  The first close is
the first step, or it is in the run that follows. -/
theorem results_cases
    {l : Line σ} {c : Connection}
    (hc : l.connection = some c)
    {steps : List LineStep}
    (kept : .drop ∉ steps) :
    (.close ∉ steps ∧
      ∀ r ∈ l.results false steps, r.isTransfer = true) ∨
    (.close ∈ steps ∧
      ∃ earlier, ∃ u : σ, ∃ later,
        l.results false steps =
          earlier ++ .closed false (c.close u).result :: later ∧
        (∀ r ∈ earlier, r.isTransfer = true) ∧
        ∀ r ∈ later, CallResult.Refused c r) := by
  induction steps generalizing l with
  | nil =>
      left
      exact ⟨by simp, by simp [results]⟩
  | cons s rest ih =>
      simp only [List.mem_cons, not_or] at kept
      obtain ⟨hs, hrest⟩ := kept
      have hnext := connection_next hc hs
      by_cases hclose : s = .close
      · right
        subst hclose
        refine
          ⟨by simp, [], l.transport,
            (l.step .close).2.1.results true rest, ?_, by simp, ?_⟩
        · rw [results, (calls_step l false .close).results_close hc]
          rfl
        · intro r mem
          exact refused_of_mem_results (by simpa using hnext) hrest mem
      · rw [if_neg hclose] at hnext
        have hnow : ∀ r ∈ l.resultsOf false s, r.isTransfer = true := by
          intro r mem
          exact (calls_step l false s).isTransfer_of_mem hclose mem
        have hresults :
            l.results false (s :: rest) =
              l.resultsOf false s ++
                (l.step s).2.1.results false rest := by
          simp [results, hclose]
        rw [hresults]
        rcases ih hnext hrest with
          ⟨hopen, htransfer⟩ |
            ⟨hclosed, earlier, u, later, hsplit, hearlier, hlater⟩
        · left
          refine ⟨by simp [Ne.symm hclose, hopen], ?_⟩
          intro r mem
          rcases List.mem_append.mp mem with hin | hin
          · exact hnow r hin
          · exact htransfer r hin
        · right
          refine
            ⟨by simp [hclosed], l.resultsOf false s ++ earlier,
              u, later, ?_, ?_, hlater⟩
          · rw [hsplit, List.append_assoc]
          · intro r mem
            rcases List.mem_append.mp mem with hin | hin
            · exact hnow r hin
            · exact hearlier r hin

/-- The events of a run fall into two parts.  The first does not say that the
connection is closed; the second says so once if it was closed, and tells of no
transfer. -/
theorem exists_parts_of_run
    {l : Line σ} {c : Connection} {h : Handle}
    (hc : l.connection = some c)
    (owns : c.handle = some h)
    {steps : List LineStep}
    (kept : .drop ∉ steps) :
    ∃ before after : List Event,
      (l.run steps).2.events = before ++ after ∧
      (∀ e ∈ before, e.isClosed = false) ∧
      (∀ e ∈ after, e.isTransfer = false) ∧
      after.countP Event.isClosed =
        if .close ∈ steps then 1 else 0 := by
  have hevents := events_run hc kept
  rw [owns, Option.isNone_some] at hevents
  have hquiet :
      ∀ rs : List CallResult,
        (∀ r ∈ rs, r.isTransfer = true) →
        ∀ e ∈ rs.flatMap (CallResult.events c),
          e.isClosed = false := by
    intro rs hrs e mem
    obtain ⟨r, hr, he⟩ := List.mem_flatMap.mp mem
    exact CallResult.isClosed_of_mem_events (hrs r hr) he
  rcases results_cases hc kept with
    ⟨hopen, htransfer⟩ |
      ⟨hclosed, earlier, u, later, hsplit, hearlier, hlater⟩
  · refine ⟨_, [], (List.append_nil _).symm, ?_, by simp, ?_⟩
    · rw [hevents]
      exact hquiet _ htransfer
    · rw [if_neg hopen]
      rfl
  · rw [hsplit, List.flatMap_append] at hevents
    refine ⟨_, _, hevents, hquiet _ hearlier, ?_, ?_⟩
    · intro e mem
      rw [List.flatMap_cons, List.mem_append] at mem
      rcases mem with hfirst | hrest
      · rcases Connection.close_first owns u with
          ⟨hresult, -⟩ | ⟨reason, hresult, -⟩
        · rw [hresult] at hfirst
          rw [List.mem_singleton.mp hfirst]
          rfl
        · simp only [hresult, CallResult.events, List.mem_cons,
            List.not_mem_nil, or_false] at hfirst
          rcases hfirst with rfl | rfl
          · rfl
          · rfl
      · obtain ⟨r, hr, he⟩ := List.mem_flatMap.mp hrest
        exact ((hlater r hr).of_mem_events he).1
    · have hnone :
          (later.flatMap (CallResult.events c)).countP
            Event.isClosed = 0 := by
        rw [List.countP_eq_zero]
        intro e mem
        obtain ⟨r, hr, he⟩ := List.mem_flatMap.mp mem
        simp [((hlater r hr).of_mem_events he).2]
      rw [if_pos hclosed, List.flatMap_cons, List.countP_append, hnone]
      rcases Connection.close_first owns u with
        ⟨hresult, -⟩ | ⟨reason, hresult, -⟩
      · rw [hresult]
        rfl
      · rw [hresult]
        rfl

/-- The first close of a run fails only with a reason, and every later one
because it is not the first. -/
theorem closed_of_mem_results
    {l : Line σ} {c : Connection} {h : Handle}
    (hc : l.connection = some c)
    (owns : c.handle = some h)
    {steps : List LineStep}
    (kept : .drop ∉ steps)
    {again : Bool} {r : Except ConnectionError Unit}
    (mem : .closed again r ∈ l.results false steps) :
    (again = false ∧ r = .ok ()) ∨
    (∃ reason,
      r = .error (.closeFailed c.id reason) ∧
      (again = true → reason = "already closed")) := by
  rcases results_cases hc kept with
    ⟨-, htransfer⟩ | ⟨-, earlier, u, later, hsplit, hearlier, hlater⟩
  · cases htransfer _ mem
  · rw [hsplit, List.mem_append, List.mem_cons] at mem
    rcases mem with hin | hfirst | hin
    · cases hearlier _ hin
    · cases hfirst
      rcases Connection.close_first owns u with
        ⟨hresult, -⟩ | ⟨reason, hresult, -⟩
      · exact Or.inl ⟨rfl, hresult⟩
      · exact Or.inr ⟨reason, hresult, by simp⟩
    · cases hlater _ hin with
      | close => exact Or.inr ⟨_, rfl, fun _ => rfl⟩

/--
**The log of a connection** is the exact image of what its calls return, over
any transport and for any run of steps that keeps the connection.

* The events are those of the calls, one after the other, and a sink that keeps
  what it is given is left with just these.
* A close that fails is the first and gives its reason, or it is a later one
  and says so.
* That the connection is closed is said once if it was ever closed, otherwise
  never, and after it no transfer is told of.
* In each direction the octets told of add up to what the calls returned, and
  to what the transport has taken or brought.
-/
theorem log_is_image
    {number : Nat} {settings : ConnectionSettings} {t : σ}
    {l : Line σ} {opening : Trace}
    (opened : Line.open number settings t = (.ok (), l, opening))
    {steps : List LineStep}
    (kept : .drop ∉ steps) :
    ∃ c,
      l.connection = some c ∧
      opening.events = [] ∧
      (l.run steps).2.events =
        (l.results false steps).flatMap (CallResult.events c) ∧
      (∀ {ω : Type} [Writer ω] (b : Board ω) (place : Nat),
        b.leaf? place = some (.memory []) →
        (b.relay (.leaf place) (opening ++ (l.run steps).2)).1.leaf? place =
          some (.memory
            ((l.results false steps).flatMap (CallResult.events c)))) ∧
      (∀ again r,
        .closed again r ∈ l.results false steps →
        (again = false ∧ r = .ok ()) ∨
        (∃ reason,
          r = .error (.closeFailed c.id reason) ∧
          (again = true → reason = "already closed"))) ∧
      (l.run steps).2.events.countP Event.isClosed =
        (if .close ∈ steps then 1 else 0) ∧
      (l.run steps).2.events.Pairwise
        (fun a b => a.isClosed = true → b.isTransfer = false) ∧
      (∀ d,
        ((l.run steps).2.events.map (Event.octets d)).sum =
          ((l.results false steps).map (CallResult.octets d)).sum) ∧
      ((l.run steps).2.events.map (Event.octets .outbound)).sum =
        (l.run steps).2.outflow.length ∧
      ((l.run steps).2.events.map (Event.octets .inbound)).sum =
        (l.run steps).2.inflow.length := by
  obtain ⟨c, rfl, hmade, hopening⟩ := open_ok opened
  have owns := hmade.owns
  have hevents := events_run (l := ⟨t, 1, some c, []⟩) rfl kept
  rw [owns, Option.isNone_some] at hevents
  have hsum : ∀ d,
      ((Line.run ⟨t, 1, some c, []⟩ steps).2.events.map
          (Event.octets d)).sum =
        ((Line.results ⟨t, 1, some c, []⟩ false steps).map
          (CallResult.octets d)).sum := by
    intro d
    rw [hevents]
    exact CallResult.sum_octets_flatMap_events c d _
  obtain ⟨before, after, hparts, hbefore, hafter, hcount⟩ :=
    exists_parts_of_run (l := ⟨t, 1, some c, []⟩) rfl owns kept
  refine
    ⟨c, rfl, hopening, hevents, ?_, ?_, ?_, ?_, hsum, ?_, ?_⟩
  · intro ω _ b place hleaf
    rw [Board.leaf?_relay_memory hleaf, Trace.events_append, hopening,
      hevents]
    rfl
  · intro again r mem
    exact closed_of_mem_results rfl owns kept mem
  · have hzero : before.countP Event.isClosed = 0 := by
      rw [List.countP_eq_zero]
      intro e mem
      simp [hbefore e mem]
    rw [hparts, List.countP_append, hzero, hcount, Nat.zero_add]
  · rw [hparts, List.pairwise_append]
    refine ⟨?_, ?_, ?_⟩
    · refine List.pairwise_of_forall_mem_list ?_
      intro a ha b _ hclosed
      rw [hbefore a ha] at hclosed
      cases hclosed
    · refine List.pairwise_of_forall_mem_list ?_
      intro a _ b hb _
      exact hafter b hb
    · intro a ha b _ hclosed
      rw [hbefore a ha] at hclosed
      cases hclosed
  · rw [hsum, length_outflow_run _ false]
  · rw [hsum, length_inflow_run _ false]

/-- A connection that writes, delivers in two writes, reads, is closed badly and
then written to and closed again. -/
theorem log_is_image_closed_twice :
    let t : Script :=
      { descriptor := 42
        peer := .ok "203.0.113.5:51000"
        reads := [.chunk [7, 8] none]
        writes := [.ok 1, .ok 2, .error (.bare .interrupted), .ok 1]
        shutdowns := [some (.system 32)] }
    let opened := Line.open 0 {} t
    let steps : List LineStep :=
      [.write [1], .writeAll [2, 3, 4], .read 8, .interrupter, .close,
        .write [5], .close]
    opened = (.ok (), opened.2.1, opened.2.2) ∧
    .drop ∉ steps ∧
    (opened.2.1.run steps).2.events =
      [.transfer .outbound "203.0.113.5:51000" 1,
        .transfer .outbound "203.0.113.5:51000" 2,
        .transfer .outbound "203.0.113.5:51000" 1,
        .transfer .inbound "203.0.113.5:51000" 2,
        .closeFailed 42 "Broken pipe (os error 32)",
        .closed 42,
        .closeFailed 42 "already closed"] ∧
    ∃ c,
      opened.2.1.connection = some c ∧
      (opened.2.1.run steps).2.events =
        (opened.2.1.results false steps).flatMap
          (CallResult.events c) ∧
      (opened.2.1.run steps).2.events.countP Event.isClosed = 1 := by
  intro t opened steps
  obtain ⟨c, hc, -, hevents, -, -, hcount, -⟩ :=
    @log_is_image Script _ 0 {} t opened.2.1 opened.2.2 rfl
      steps (by decide)
  exact ⟨rfl, by decide, by cbv, c, hc, hevents, hcount⟩

end Line

end StreamServer
