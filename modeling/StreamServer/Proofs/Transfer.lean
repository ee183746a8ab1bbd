import StreamServer.Connection.Service

/-!
# What passes through a connection

The octets that a trace moves, read off the calls alone: the `outflow` is what
the transport has taken, the `inflow` what it has brought.

A read or a write makes its call again and again while it is broken off.
`Retried` says what the trace of such a loop looks like, and everything else
said here about a single read or write is read off it: what it moves, which
calls it makes, and what its result says about both.
-/

namespace StreamServer

namespace Act

/-- What an act took from the front of the octets offered to the transport.
A count beyond the offer says nothing about what was taken. -/
def took : Act → Bytes
  | .call _ (.send data (.ok n)) =>
      if n ≤ data.length then data.take n else []
  | _ => []

/-- What a read that was answered has brought. -/
def brought? : Act → Option Bytes
  | .call _ (.receive room (.ok f)) => some (f.taken room)
  | _ => none

/-- Whether an act is a write that the transport answered for good. -/
def isSettledSend : Act → Bool
  | .call _ (.send _ (.ok _)) => true
  | .call _ (.send _ (.error f)) => ! f.isInterrupted
  | _ => false

end Act

namespace Trace

/-- The octets that the transport has taken, in the order of the calls. -/
def outflow (T : Trace) : Bytes :=
  T.flatMap Act.took

/-- What the reads of a trace have brought, one entry for each. -/
def reads (T : Trace) : List Bytes :=
  T.filterMap Act.brought?

/-- The octets that the transport has brought, in the order of the calls. -/
def inflow (T : Trace) : Bytes :=
  T.reads.flatten

/-- What the last read has brought. -/
def lastRead (T : Trace) : Bytes :=
  T.reads.getLast?.getD []

/-- How many writes the transport has answered for good. -/
def settledSends (T : Trace) : Nat :=
  T.countP Act.isSettledSend

@[simp] theorem outflow_nil :
    outflow [] = [] := by
  rfl

@[simp] theorem outflow_append
    (S T : Trace) :
    outflow (S ++ T) = outflow S ++ outflow T := by
  simp [outflow]

@[simp] theorem outflow_log
    (r : LogRecord) :
    outflow [.log r] = [] := by
  rfl

@[simp] theorem reads_log
    (r : LogRecord) :
    reads [.log r] = [] := by
  rfl

@[simp] theorem reads_append
    (S T : Trace) :
    reads (S ++ T) = reads S ++ reads T := by
  simp [reads]

@[simp] theorem inflow_append
    (S T : Trace) :
    inflow (S ++ T) = inflow S ++ inflow T := by
  simp [inflow]

theorem inflow_of_reads_nil
    {T : Trace}
    (h : T.reads = []) :
    T.inflow = [] := by
  simp [inflow, h]

/-- A call is made in a trace if it is one of its acts. -/
theorem mem_calls
    {T : Trace} {x : Handle × Call} :
    x ∈ T.calls ↔ .call x.1 x.2 ∈ T := by
  unfold calls
  rw [List.mem_filterMap]
  constructor
  · rintro ⟨a, ha, hx⟩
    cases a with
    | call h k =>
        cases hx
        exact ha
    | _ => cases hx
  · intro mem
    exact ⟨_, mem, rfl⟩

@[simp] theorem settledSends_append
    (S T : Trace) :
    settledSends (S ++ T) =
      settledSends S + settledSends T := by
  simp [settledSends]

/-- Less of a trace has moved less. -/
theorem outflow_mono
    {S T : Trace}
    (h : S <+: T) :
    outflow S <+: outflow T := by
  obtain ⟨rest, rfl⟩ := h
  rw [outflow_append]
  exact List.prefix_append _ _

end Trace

/--
A call made again and again: every answer but the last asked for that, and the
last one is `answer`.
-/
inductive Retried
    {α : Type}
    (h : Handle)
    (made : Except Fault α → Call)
    (answer : Except Fault α) :
    Trace → Prop
  | settled
      (final : ∀ f, answer = .error f → f.isInterrupted = false) :
      Retried h made answer [.call h (made answer)]
  | again
      {T : Trace}
      (f : Fault)
      (broken : f.isInterrupted = true)
      (more : Retried h made answer T) :
      Retried h made answer (.call h (made (.error f)) :: T)

namespace Retried

variable {α : Type}
variable {h : Handle} {made : Except Fault α → Call}
variable {answer : Except Fault α} {T : Trace}

/-- The last answer does not ask for the call to be made again. -/
theorem not_interrupted
    (retried : Retried h made answer T)
    {f : Fault}
    (failed : answer = .error f) :
    f.isInterrupted = false := by
  induction retried with
  | settled final => exact final f failed
  | again _ _ _ ih => exact ih

/-- Nothing but the call itself is done. -/
theorem acts
    (retried : Retried h made answer T)
    {a : Act}
    (mem : a ∈ T) :
    ∃ r, a = .call h (made r) := by
  induction retried with
  | settled _ =>
      rw [List.mem_singleton] at mem
      exact ⟨answer, mem⟩
  | again f _ _ ih =>
      rcases List.mem_cons.mp mem with rfl | later
      · exact ⟨.error f, rfl⟩
      · exact ih later

/-- The last call is the one with the last answer. -/
theorem getLast_calls
    (retried : Retried h made answer T) :
    T.calls.getLast? = some (h, made answer) := by
  induction retried with
  | settled _ => rfl
  | again f _ _ ih =>
      have hcons : ∀ S : Trace,
          Trace.calls (.call h (made (.error f)) :: S) =
            (h, made (.error f)) :: S.calls := by
        intro S
        rfl
      rw [hcons, List.getLast?_cons, ih]
      rfl

/-- No event is emitted by a call. -/
theorem events_eq_nil
    (retried : Retried h made answer T) :
    T.events = [] := by
  induction retried with
  | settled _ => rfl
  | again f _ _ ih => exact ih

/-- Only the last answer of a repeated write tells what was taken. -/
theorem outflow_send
    {data : Bytes} {sent : Except Fault Nat}
    (retried : Retried h (.send data) sent T) :
    T.outflow = Act.took (.call h (.send data sent)) := by
  induction retried with
  | settled _ => simp [Trace.outflow]
  | again f _ _ ih => exact ih

/-- A repeated write brings nothing. -/
theorem reads_send
    {data : Bytes} {sent : Except Fault Nat}
    (retried : Retried h (.send data) sent T) :
    T.reads = [] := by
  induction retried with
  | settled _ => rfl
  | again f _ _ ih => exact ih

/-- However often a write is broken off, it is answered for good once. -/
theorem settledSends_send
    {data : Bytes} {sent : Except Fault Nat}
    (retried : Retried h (.send data) sent T) :
    T.settledSends = 1 := by
  induction retried with
  | settled final =>
      cases hsent : sent with
      | ok n => rfl
      | error f =>
          have hf := final f hsent
          simp [Trace.settledSends, Act.isSettledSend, hf]
  | again f broken _ ih =>
      simpa [Trace.settledSends, Act.isSettledSend, broken]
        using ih

/-- A repeated read takes nothing. -/
theorem outflow_receive
    {room : Nat} {filled : Except Fault Filled}
    (retried : Retried h (.receive room) filled T) :
    T.outflow = [] := by
  induction retried with
  | settled _ => rfl
  | again f _ _ ih => exact ih

/-- Only the last answer of a repeated read tells what was brought. -/
theorem reads_receive
    {room : Nat} {filled : Except Fault Filled}
    (retried : Retried h (.receive room) filled T) :
    T.reads =
      (Act.brought? (.call h (.receive room filled))).toList := by
  induction retried with
  | settled _ =>
      cases filled with
      | ok f => rfl
      | error f => rfl
  | again f _ _ ih => exact ih

end Retried

namespace Connection

variable {σ : Type} [Transport σ]

/-! ## The loops behind a write and a read -/

theorem retried_sendThrough
    (h : Handle) (t : σ) (data : Bytes) :
    Retried h (.send data)
      (sendThrough h t data).result
      (sendThrough h t data).trace := by
  fun_induction sendThrough h t data with
  | case1 t made n answered =>
      have hmade : made = .call h (.send data (.ok n)) := by
        rw [← answered]
      rw [hmade]
      exact .settled (fun f failed => by cases failed)
  | case2 t made f answered broken ih =>
      have hmade : made = .call h (.send data (.error f)) := by
        rw [← answered]
      rw [hmade]
      exact .again f broken ih
  | case3 t made f answered kept =>
      have hmade : made = .call h (.send data (.error f)) := by
        rw [← answered]
      rw [hmade]
      refine .settled ?_
      intro g failed
      cases failed
      exact eq_false_of_ne_true kept

theorem retried_receiveThrough
    (h : Handle) (t : σ) (room : Nat) :
    Retried h (.receive room)
      (receiveThrough h t room).result
      (receiveThrough h t room).trace := by
  fun_induction receiveThrough h t room with
  | case1 t made n answered =>
      have hmade : made = .call h (.receive room (.ok n)) := by
        rw [← answered]
      rw [hmade]
      exact .settled (fun f failed => by cases failed)
  | case2 t made f answered broken ih =>
      have hmade : made = .call h (.receive room (.error f)) := by
        rw [← answered]
      rw [hmade]
      exact .again f broken ih
  | case3 t made f answered kept =>
      have hmade : made = .call h (.receive room (.error f)) := by
        rw [← answered]
      rw [hmade]
      refine .settled ?_
      intro g failed
      cases failed
      exact eq_false_of_ne_true kept

/-! ## A single write -/

/--
What a write can do: nothing at all without a handle, nothing but an event for
an empty payload, and otherwise one repeated call that `writeResult` reads.
-/
theorem write_cases
    (c : Connection) (t : σ) (data : Bytes) :
    ((c.state ≠ .live ∨ c.handle = none) ∧
      c.write t data =
        ⟨.error (.notLive
            (preview data c.settings.previewLength.toNat)),
          t, []⟩) ∨
    (data = [] ∧ c.write t data = ⟨.ok 0, t, c.sent (.ok 0)⟩) ∨
    (∃ h answer T,
      c.state = .live ∧
      c.handle = some h ∧
      data ≠ [] ∧
      Retried h (.send data) answer T ∧
      (c.write t data).result = c.writeResult data answer ∧
      (c.write t data).trace =
        T ++ c.sent (c.writeResult data answer)) := by
  cases hstate : c.state with
  | closed =>
      left
      exact ⟨Or.inl (by simp), by simp [write, hstate]⟩
  | live =>
      cases hhandle : c.handle with
      | none =>
          left
          exact ⟨Or.inr rfl, by simp [write, hstate, hhandle]⟩
      | some h =>
          right
          by_cases hnil : data = []
          · left
            exact ⟨hnil, by simp [write, hstate, hhandle, hnil]⟩
          · right
            refine
              ⟨h, (sendThrough h t data).result,
                (sendThrough h t data).trace, rfl, rfl, hnil,
                retried_sendThrough h t data, ?_, ?_⟩ <;>
              simp [write, hstate, hhandle, hnil]

@[simp] theorem outflow_sent
    (c : Connection) (r : Except ConnectionError Nat) :
    (c.sent r).outflow = [] := by
  cases r <;> rfl

@[simp] theorem reads_sent
    (c : Connection) (r : Except ConnectionError Nat) :
    (c.sent r).reads = [] := by
  cases r <;> rfl

@[simp] theorem settledSends_sent
    (c : Connection) (r : Except ConnectionError Nat) :
    (c.sent r).settledSends = 0 := by
  cases r <;> rfl

@[simp] theorem calls_sent
    (c : Connection) (r : Except ConnectionError Nat) :
    (c.sent r).calls = [] := by
  cases r <;> rfl

/-- A count is within the payload, and is what was taken of it. -/
theorem took_of_writeResult_ok
    (c : Connection) (h : Handle)
    {data : Bytes} {answer : Except Fault Nat} {n : Nat}
    (done : c.writeResult data answer = .ok n) :
    n ≤ data.length ∧
      Act.took (.call h (.send data answer)) = data.take n := by
  cases answer with
  | ok m =>
      simp only [writeResult] at done
      split at done
      · cases done
      · next hle =>
          cases done
          have hle' : n ≤ data.length := Nat.le_of_not_lt hle
          exact ⟨hle', by simp only [Act.took, if_pos hle']⟩
  | error f =>
      simp only [writeResult] at done
      split at done
      · cases done
        exact ⟨Nat.zero_le _, by simp [Act.took]⟩
      · cases done

/-- A write that fails has had nothing taken of it. -/
theorem took_of_writeResult_error
    (c : Connection) (h : Handle)
    {data : Bytes} {answer : Except Fault Nat}
    {e : ConnectionError}
    (failed : c.writeResult data answer = .error e) :
    Act.took (.call h (.send data answer)) = [] := by
  cases answer with
  | ok m =>
      simp only [writeResult] at failed
      split at failed
      · next hlt => simp [Act.took, Nat.not_le_of_lt hlt]
      · cases failed
  | error f => rfl

/-- A write that reports a count has had so many octets taken, and no more
than it was given. -/
theorem write_ok
    {c : Connection} {t : σ} {data : Bytes} {n : Nat}
    (done : (c.write t data).result = .ok n) :
    n ≤ data.length ∧
      (c.write t data).trace.outflow = data.take n := by
  rcases write_cases c t data with
    ⟨-, hw⟩ | ⟨hnil, hw⟩ |
      ⟨h, answer, T, -, -, -, retried, hresult, htrace⟩
  · rw [hw] at done
    cases done
  · rw [hw] at done ⊢
    cases done
    exact ⟨Nat.zero_le _, by simp⟩
  · rw [hresult] at done
    obtain ⟨hle, htook⟩ := took_of_writeResult_ok c h done
    refine ⟨hle, ?_⟩
    rw [htrace, Trace.outflow_append, outflow_sent,
      List.append_nil, retried.outflow_send, htook]

/-- A write that fails has had nothing taken. -/
theorem outflow_write_error
    {c : Connection} {t : σ} {data : Bytes}
    {e : ConnectionError}
    (failed : (c.write t data).result = .error e) :
    (c.write t data).trace.outflow = [] := by
  rcases write_cases c t data with
    ⟨-, hw⟩ | ⟨-, hw⟩ |
      ⟨h, answer, T, -, -, -, retried, hresult, htrace⟩
  · rw [hw]
    rfl
  · rw [hw] at failed
    cases failed
  · rw [hresult] at failed
    rw [htrace, Trace.outflow_append, outflow_sent,
      List.append_nil, retried.outflow_send]
    exact took_of_writeResult_error c h failed

@[simp] theorem reads_write
    (c : Connection) (t : σ) (data : Bytes) :
    (c.write t data).trace.reads = [] := by
  rcases write_cases c t data with
    ⟨-, hw⟩ | ⟨-, hw⟩ | ⟨h, answer, T, -, -, -, retried, -, htrace⟩
  · rw [hw]
    rfl
  · rw [hw]
    exact reads_sent c (.ok 0)
  · rw [htrace, Trace.reads_append, reads_sent, retried.reads_send]
    rfl

/-- A write of something has one call answered for good. -/
theorem settledSends_write_le
    (c : Connection) (t : σ) (data : Bytes) :
    (c.write t data).trace.settledSends ≤ 1 := by
  rcases write_cases c t data with
    ⟨-, hw⟩ | ⟨-, hw⟩ | ⟨h, answer, T, -, -, -, retried, -, htrace⟩
  · rw [hw]
    exact Nat.zero_le _
  · rw [hw, settledSends_sent]
    exact Nat.zero_le _
  · have hone : (c.write t data).trace.settledSends = 1 := by
      rw [htrace, Trace.settledSends_append, settledSends_sent,
        retried.settledSends_send]
    exact Nat.le_of_eq hone

/-! ## The writes of a delivery -/

/-- The writes that a delivery is made of, in order. -/
def writesOf (c : Connection) (t : σ) (data : Bytes) :
    List (Outcome σ (Except ConnectionError Nat)) :=
  match data with
  | [] => []
  | b :: rest =>
      let o := c.write t (b :: rest)
      match o.result with
      | .ok (n + 1) => o :: c.writesOf o.transport (rest.drop n)
      | _ => [o]
termination_by data.length
decreasing_by
  simp only [List.length_drop, List.length_cons]
  omega

/-- A delivery does what its writes do. -/
theorem trace_writeAll
    (c : Connection) (t : σ) (data : Bytes) :
    (c.writeAll t data).trace =
      (c.writesOf t data).flatMap Outcome.trace := by
  fun_induction writeAll c t data with
  | case1 t => simp [writesOf]
  | case2 t b rest o e failed =>
      have hstop : c.writesOf t (b :: rest) = [o] := by
        rw [writesOf]
        simp [o, failed]
      simp [hstop]
  | case3 t b rest o none_taken =>
      have hstop : c.writesOf t (b :: rest) = [o] := by
        rw [writesOf]
        simp [o, none_taken]
      simp [hstop]
  | case4 t b rest o n some_taken ih =>
      have hmore :
          c.writesOf t (b :: rest) =
            o :: c.writesOf o.transport (rest.drop n) := by
        rw [writesOf]
        simp [o, some_taken]
      rw [hmore, List.flatMap_cons, ← ih]
      rfl

/-- Each of them is a write on the connection. -/
theorem exists_write_of_mem_writesOf
    {c : Connection} {t : σ} {data : Bytes}
    {o : Outcome σ (Except ConnectionError Nat)}
    (mem : o ∈ c.writesOf t data) :
    ∃ u offered, o = c.write u offered := by
  fun_induction writesOf c t data with
  | case1 t => cases mem
  | case2 t b rest o' n some_taken ih =>
      rcases List.mem_cons.mp mem with rfl | later
      · exact ⟨t, b :: rest, rfl⟩
      · exact ih later
  | case3 t b rest o' stops =>
      rw [List.mem_singleton] at mem
      exact ⟨t, b :: rest, mem⟩

/-- So everything that a delivery does is done by a write. -/
theorem exists_write_of_mem_writeAll
    {c : Connection} {t : σ} {data : Bytes} {a : Act}
    (mem : a ∈ (c.writeAll t data).trace) :
    ∃ (u : σ) (offered : Bytes), a ∈ (c.write u offered).trace := by
  rw [trace_writeAll, List.mem_flatMap] at mem
  obtain ⟨o, ho, ha⟩ := mem
  obtain ⟨u, offered, rfl⟩ := exists_write_of_mem_writesOf ho
  exact ⟨u, offered, ha⟩

/-! ## A single read -/

/--
What a read can do: nothing at all without a handle, and otherwise one repeated
call that `readResult` reads.
-/
theorem read_cases
    (c : Connection) (t : σ) (wanted : Nat) :
    ((c.state ≠ .live ∨ c.handle = none) ∧
      c.read t wanted = ⟨.error (.notLive ""), t, []⟩) ∨
    (∃ h answer T,
      c.state = .live ∧
      c.handle = some h ∧
      Retried h (.receive (min wanted maxReadSize)) answer T ∧
      (c.read t wanted).result = c.readResult wanted answer ∧
      (c.read t wanted).trace =
        T ++ c.received (c.readResult wanted answer)) := by
  cases hstate : c.state with
  | closed =>
      left
      exact ⟨Or.inl (by simp), by simp [read, hstate]⟩
  | live =>
      cases hhandle : c.handle with
      | none =>
          left
          exact ⟨Or.inr rfl, by simp [read, hstate, hhandle]⟩
      | some h =>
          right
          refine
            ⟨h, (receiveThrough h t (min wanted maxReadSize)).result,
              (receiveThrough h t (min wanted maxReadSize)).trace,
              rfl, rfl, retried_receiveThrough h t _, ?_, ?_⟩ <;>
            simp [read, hstate, hhandle]

@[simp] theorem outflow_received
    (c : Connection) (r : Except ConnectionError Bytes) :
    (c.received r).outflow = [] := by
  cases r <;> rfl

@[simp] theorem reads_received
    (c : Connection) (r : Except ConnectionError Bytes) :
    (c.received r).reads = [] := by
  cases r <;> rfl

@[simp] theorem calls_received
    (c : Connection) (r : Except ConnectionError Bytes) :
    (c.received r).calls = [] := by
  cases r <;> rfl

@[simp] theorem outflow_read
    (c : Connection) (t : σ) (wanted : Nat) :
    (c.read t wanted).trace.outflow = [] := by
  rcases read_cases c t wanted with
    ⟨-, hr⟩ | ⟨h, answer, T, -, -, retried, -, htrace⟩
  · rw [hr]
    rfl
  · rw [htrace, Trace.outflow_append, outflow_received,
      retried.outflow_receive]
    rfl

end Connection

/-- What is taken from a buffer is never more than its room. -/
theorem Filled.length_taken_le
    (f : Filled) (room : Nat) :
    (f.taken room).length ≤ room := by
  simp only [Filled.taken, List.length_take]
  omega

namespace Connection

variable {σ : Type} [Transport σ]

/-- A read that returns octets returns what it has brought, which is no more
than it asked for.  It brings nothing at all if there was nothing yet. -/
theorem read_ok
    {c : Connection} {t : σ} {wanted : Nat} {data : Bytes}
    (done : (c.read t wanted).result = .ok data) :
    data.length ≤ min wanted maxReadSize ∧
      ((c.read t wanted).trace.reads = [data] ∨
        (data = [] ∧ (c.read t wanted).trace.reads = [])) := by
  rcases read_cases c t wanted with
    ⟨-, hr⟩ | ⟨h, answer, T, -, -, retried, hresult, htrace⟩
  · rw [hr] at done
    cases done
  · rw [hresult] at done
    rw [htrace, Trace.reads_append, reads_received,
      List.append_nil, retried.reads_receive]
    cases answer with
    | ok f =>
        simp only [readResult, Except.ok.injEq] at done
        subst done
        exact ⟨f.length_taken_le _, Or.inl rfl⟩
    | error f =>
        simp only [readResult] at done
        split at done
        · cases done
          exact ⟨Nat.zero_le _, Or.inr ⟨rfl, rfl⟩⟩
        · cases done

/-- What a read returns is what has come in. -/
theorem inflow_read_ok
    {c : Connection} {t : σ} {wanted : Nat} {data : Bytes}
    (done : (c.read t wanted).result = .ok data) :
    (c.read t wanted).trace.inflow = data := by
  obtain ⟨-, hone | ⟨hnil, hnone⟩⟩ := read_ok done
  · simp [Trace.inflow, hone]
  · simp [Trace.inflow, hnone, hnil]

theorem length_reads_read_le
    (c : Connection) (t : σ) (wanted : Nat) :
    (c.read t wanted).trace.reads.length ≤ 1 := by
  rcases read_cases c t wanted with
    ⟨-, hr⟩ | ⟨h, answer, T, -, -, retried, -, htrace⟩
  · rw [hr]
    exact Nat.zero_le 1
  · rw [htrace, Trace.reads_append, reads_received,
      List.append_nil, retried.reads_receive]
    cases answer with
    | ok f => exact Nat.le_refl 1
    | error f => exact Nat.zero_le 1

theorem reads_read_error
    {c : Connection} {t : σ} {wanted : Nat}
    {e : ConnectionError}
    (failed : (c.read t wanted).result = .error e) :
    (c.read t wanted).trace.reads = [] := by
  rcases read_cases c t wanted with
    ⟨-, hr⟩ | ⟨h, answer, T, -, -, retried, hresult, htrace⟩
  · rw [hr]
    rfl
  · rw [hresult] at failed
    rw [htrace, Trace.reads_append, reads_received,
      List.append_nil, retried.reads_receive]
    cases answer with
    | ok f => cases failed
    | error f => rfl

/-! ## A close -/

/--
What closing a connection that owns its handle does: it shuts the handle down,
gives it back, and tells that the connection is closed.  A peer that is gone is
only noted; any other fault is told of and returned.
-/
theorem close_cases
    {c : Connection} {h : Handle}
    (owns : c.handle = some h)
    (t : σ) :
    ∃ answer,
      ((c.close t).result = .ok () ∧
        (c.close t).trace =
          [.call h (.shutdown answer), .call h .release,
            .emit (.closed c.id)]) ∨
      ((c.close t).result = .ok () ∧
        ∃ r,
          (c.close t).trace =
            [.call h (.shutdown answer), .call h .release, .log r,
              .emit (.closed c.id)]) ∨
      (∃ reason,
        (c.close t).result = .error (.closeFailed c.id reason) ∧
        (c.close t).trace =
          [.call h (.shutdown answer), .call h .release,
            .emit (.closeFailed c.id reason),
            .emit (.closed c.id)]) := by
  unfold close
  rw [owns]
  cases hanswer : (Transport.shutdown t).1 with
  | ok u => exact ⟨.ok u, Or.inl ⟨rfl, rfl⟩⟩
  | error f =>
      refine ⟨.error f, Or.inr ?_⟩
      by_cases hgone : f.kind = .notConnected
      · left
        simp only [hgone, if_true, true_and]
        exact ⟨_, rfl⟩
      · right
        refine ⟨f.text, ?_⟩
        simp only [hgone, if_false, true_and]
        rfl

/-- Without a handle a close does nothing but tell that it is a later one. -/
theorem close_again
    {c : Connection}
    (ended : c.handle = none)
    (t : σ) :
    c.close t =
      ⟨.error (.closeFailed c.id "already closed"), t,
        [.emit (.closeFailed c.id "already closed")]⟩ := by
  rw [close, ended]
  rfl

end Connection

end StreamServer
