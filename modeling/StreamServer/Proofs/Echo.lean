import StreamServer.Proofs.Delivery

/-!
# Echo

A connection that is served sends back what it reads.  At every moment what has
been sent is a prefix of what has been read, and it lags behind by no more than
the last read.  Only a write that fails leaves a difference when the service
ends, and however it ends, the parting goes the same way: off the register, the
handle shut down and given back, the word that the connection is closed, and
the permit last.

Rounds that end with everything echoed can be put one after the other, and the
last round may be of any kind: `Echoing.append` is the step of every induction
here.
-/

namespace StreamServer

/-- Whether an act belongs to the parting from a connection: leaving the
register, the end of its handle, the word that it is closed, and the return of
the permit. -/
def Act.isParting : Act → Bool
  | .deregister _ => true
  | .returnPermit => true
  | .emit (.closed _) => true
  | .call _ (.shutdown _) => true
  | .call _ .release => true
  | _ => false

namespace Trace

/-- What has been read is what has been sent, and after it no more than the
last read, which is at most `size` long. -/
def Lags (size : Nat) (moment : Trace) : Prop :=
  ∃ lag,
    moment.inflow = moment.outflow ++ lag ∧
    lag <:+ moment.lastRead ∧
    lag.length ≤ size

/-- At every moment of a trace, what is sent lags by no more than a read. -/
def Echoing (size : Nat) (T : Trace) : Prop :=
  ∀ moment : Trace, moment <+: T → Lags size moment

/-- A moment of two traces is one of the first, or it comes after it. -/
theorem moment_of_append
    {S T moment : Trace}
    (h : moment <+: S ++ T) :
    moment <+: S ∨
      ∃ later : Trace, later <+: T ∧ moment = S ++ later := by
  rcases List.prefix_or_prefix_of_prefix h
      (List.prefix_append S T) with hS | ⟨later, rfl⟩
  · exact Or.inl hS
  · exact Or.inr
      ⟨later, (List.prefix_append_right_inj S).mp h, rfl⟩

theorem reads_mono
    {S T : Trace}
    (h : S <+: T) :
    reads S <+: reads T := by
  obtain ⟨rest, rfl⟩ := h
  rw [reads_append]
  exact List.prefix_append _ _

/-- The last read is that of the later trace, if it has any. -/
theorem lastRead_append_of_reads
    {S T : Trace}
    (h : T.reads ≠ []) :
    lastRead (S ++ T) = lastRead T := by
  unfold lastRead
  rw [reads_append, List.getLast?_append]
  cases hlast : T.reads.getLast? with
  | none =>
      exact absurd (List.getLast?_eq_none_iff.mp hlast) h
  | some data => rfl

/-- With nothing moved there is no lag. -/
theorem Lags.of_quiet
    {size : Nat} {T : Trace}
    (hreads : T.reads = [])
    (hout : T.outflow = []) :
    Lags size T := by
  refine ⟨[], ?_, List.nil_suffix, Nat.zero_le _⟩
  simp [inflow, hreads, hout]

/-- A lag stays the same after a trace that is even. -/
theorem Lags.after_even
    {size : Nat} {S T : Trace}
    (even : S.inflow = S.outflow)
    (lags : Lags size T) :
    Lags size (S ++ T) := by
  obtain ⟨lag, hflow, hlast, hsize⟩ := lags
  refine ⟨lag, ?_, ?_, hsize⟩
  · rw [inflow_append, outflow_append, even, hflow,
      List.append_assoc]
  · by_cases hreads : T.reads = []
    · have hnil : T.outflow ++ lag = [] := by
        rw [← hflow]
        simp [inflow, hreads]
      rw [(List.append_eq_nil_iff.mp hnil).2]
      exact List.nil_suffix
    · rw [lastRead_append_of_reads hreads]
      exact hlast

/-- A lag stays the same while nothing moves. -/
theorem Lags.append_quiet
    {size : Nat} {S T : Trace}
    (lags : Lags size S)
    (hreads : T.reads = [])
    (hout : T.outflow = []) :
    Lags size (S ++ T) := by
  obtain ⟨lag, hflow, hlast, hsize⟩ := lags
  refine ⟨lag, ?_, ?_, hsize⟩
  · rw [inflow_append, outflow_append, hout, hflow]
    simp [inflow, hreads]
  · unfold lastRead
    rw [reads_append, hreads, List.append_nil]
    exact hlast

namespace Echoing

variable {size : Nat} {S T : Trace}

/-- After a trace that is even, another may follow. -/
theorem append
    (first : Echoing size S)
    (even : S.inflow = S.outflow)
    (second : Echoing size T) :
    Echoing size (S ++ T) := by
  intro moment hmoment
  rcases moment_of_append hmoment with hS | ⟨later, hT, rfl⟩
  · exact first moment hS
  · exact (second later hT).after_even even

/-- Nothing changes while nothing moves. -/
theorem append_quiet
    (first : Echoing size S)
    (hreads : T.reads = [])
    (hout : T.outflow = []) :
    Echoing size (S ++ T) := by
  intro moment hmoment
  rcases moment_of_append hmoment with hS | ⟨later, hT, rfl⟩
  · exact first moment hS
  · refine (first S (List.prefix_refl S)).append_quiet ?_ ?_
    · have hle := reads_mono hT
      rw [hreads] at hle
      exact List.prefix_nil.mp hle
    · have hle := outflow_mono hT
      rw [hout] at hle
      exact List.prefix_nil.mp hle

theorem of_quiet
    (hreads : T.reads = [])
    (hout : T.outflow = []) :
    Echoing size T := by
  have hnil : Echoing size [] := by
    intro moment hmoment
    rw [List.prefix_nil.mp hmoment]
    exact Lags.of_quiet rfl rfl
  exact hnil.append_quiet hreads hout

/-- A read, and then a part of what was read sent back. -/
theorem of_read_send
    {data : Bytes}
    (hread : S.reads = [data])
    (hsilent : S.outflow = [])
    (hsize : data.length ≤ size)
    (hquiet : T.reads = [])
    (hsent : T.outflow <+: data) :
    Echoing size (S ++ T) := by
  intro moment hmoment
  rcases moment_of_append hmoment with hS | ⟨later, hT, rfl⟩
  · have hout : moment.outflow = [] := by
      have hle := outflow_mono hS
      rw [hsilent] at hle
      exact List.prefix_nil.mp hle
    have hle := reads_mono hS
    rw [hread] at hle
    rcases List.prefix_cons_iff.mp hle with hnone | ⟨more, hone, hmore⟩
    · exact Lags.of_quiet hnone hout
    · rw [List.prefix_nil.mp hmore] at hone
      refine ⟨data, ?_, ?_, hsize⟩
      · simp [inflow, hone, hout]
      · simp [lastRead, hone]
  · have hnone : later.reads = [] := by
      have hle := reads_mono hT
      rw [hquiet] at hle
      exact List.prefix_nil.mp hle
    obtain ⟨lag, hlag⟩ := (outflow_mono hT).trans hsent
    refine ⟨lag, ?_, ?_, ?_⟩
    · rw [inflow_append, outflow_append, hsilent,
        List.nil_append, hlag]
      simp [inflow, hread, hnone]
    · have hlast : (S ++ later).lastRead = data := by
        simp [lastRead, hread, hnone]
      rw [hlast]
      exact ⟨_, hlag⟩
    · have hlen : data.length =
          later.outflow.length + lag.length := by
        rw [← hlag, List.length_append]
      omega

end Echoing

end Trace

namespace Connection

variable {σ : Type} [Transport σ]
variable {c : Connection} {h : Handle}

/-! ## One round -/

/-- How a service can end. -/
inductive Exit
  | nothingRead
  | readFailed (e : ConnectionError)
  | writeFailed (e : ConnectionError)

/-- How a service ends with the round that begins over a transport, if it does
end with it. -/
def exit? (c : Connection) (t : σ) : Option Exit :=
  match (c.readDefault t).result with
  | .error e => some (.readFailed e)
  | .ok [] => some .nothingRead
  | .ok (b :: rest) =>
      match (c.writeAll (c.readDefault t).transport (b :: rest)).result with
      | .error e => some (.writeFailed e)
      | .ok () => none

/-- The rounds of a service that begin over a transport: how they end, and what
is done in them. -/
inductive Round (c : Connection) (t : σ) :
    Option Exit → Trace → Prop
  | readFailed
      {e : ConnectionError} {r : LogRecord}
      (failed : (c.readDefault t).result = .error e) :
      Round c t (some (.readFailed e))
        ((c.readDefault t).trace ++ [.log r])
  | nothingRead
      (none_read : (c.readDefault t).result = .ok []) :
      Round c t (some .nothingRead) (c.readDefault t).trace
  | writeFailed
      {data : Bytes} {e : ConnectionError} {r : LogRecord}
      (some_read : (c.readDefault t).result = .ok data)
      (hne : data ≠ [])
      (failed :
        (c.writeAll (c.readDefault t).transport data).result =
          .error e) :
      Round c t (some (.writeFailed e))
        ((c.readDefault t).trace ++
          ((c.writeAll (c.readDefault t).transport data).trace ++
            [.log r]))
  | echoed
      {data : Bytes}
      (some_read : (c.readDefault t).result = .ok data)
      (hne : data ≠ [])
      (done :
        (c.writeAll (c.readDefault t).transport data).result =
          .ok ()) :
      Round c t none
        ((c.readDefault t).trace ++
          (c.writeAll (c.readDefault t).transport data).trace)

/-- Every round is one of these, and the service goes on exactly after those
that do not end it. -/
theorem round_echoOnce
    (c : Connection) (t : σ) :
    Round c t (c.exit? t) (c.echoOnce t).trace ∧
      (c.echoOnce t).result = (c.exit? t).isNone := by
  unfold exit? echoOnce echoRead
  cases reading : (c.readDefault t).result with
  | error e =>
      simp only [reading]
      exact ⟨.readFailed reading, rfl⟩
  | ok data =>
      cases data with
      | nil =>
          simp only [reading]
          exact ⟨.nothingRead reading, rfl⟩
      | cons b rest =>
          cases writing :
              (c.writeAll (c.readDefault t).transport
                (b :: rest)).result with
          | error e =>
              simp only [reading, echoAll, writing, Outcome.after]
              exact
                ⟨.writeFailed reading (by simp) writing, rfl⟩
          | ok =>
              simp only [reading, echoAll, writing, Outcome.after]
              exact ⟨.echoed reading (by simp) writing, rfl⟩

@[simp] theorem outflow_readDefault
    (c : Connection) (t : σ) :
    (c.readDefault t).trace.outflow = [] :=
  outflow_read c t _

theorem length_reads_readDefault_le
    (c : Connection) (t : σ) :
    (c.readDefault t).trace.reads.length ≤ 1 :=
  length_reads_read_le c t _

theorem reads_readDefault_error
    {t : σ} {e : ConnectionError}
    (failed : (c.readDefault t).result = .error e) :
    (c.readDefault t).trace.reads = [] :=
  reads_read_error failed

/-- What a read returns is at most as long as the settings say, and is what was
read, if anything was. -/
theorem readDefault_ok
    {t : σ} {data : Bytes}
    (done : (c.readDefault t).result = .ok data) :
    data.length ≤ c.settings.readSize.toNat ∧
      ((c.readDefault t).trace.reads = [data] ∨
        (data = [] ∧ (c.readDefault t).trace.reads = [])) := by
  obtain ⟨hlen, hreads⟩ := read_ok done
  exact ⟨Nat.le_trans hlen (Nat.min_le_left _ _), hreads⟩

/-- What a read returns is what has come in. -/
theorem inflow_readDefault
    {t : σ} {data : Bytes}
    (done : (c.readDefault t).result = .ok data) :
    (c.readDefault t).trace.inflow = data :=
  inflow_read_ok done

/-- If something was returned, it was read in one piece. -/
theorem reads_readDefault_of_ne
    {t : σ} {data : Bytes}
    (done : (c.readDefault t).result = .ok data)
    (hne : data ≠ []) :
    (c.readDefault t).trace.reads = [data] := by
  obtain ⟨-, hone | ⟨hnil, -⟩⟩ := readDefault_ok done
  · exact hone
  · exact absurd hnil hne

namespace Round

variable {t : σ} {exit : Option Exit} {T : Trace}

theorem length_reads_le
    (round : Round c t exit T) :
    T.reads.length ≤ 1 := by
  have hread := length_reads_readDefault_le c t
  cases round with
  | readFailed failed => simpa using hread
  | nothingRead none_read => exact hread
  | writeFailed some_read hne failed => simpa using hread
  | echoed some_read hne done => simpa using hread

/-- What is sent in a round lags by no more than the read. -/
theorem echoing
    (live : c.state = .live)
    (owns : c.handle = some h)
    (round : Round c t exit T) :
    T.Echoing c.settings.readSize.toNat := by
  cases round with
  | readFailed failed =>
      refine Trace.Echoing.of_quiet ?_ ?_
      · simp [reads_readDefault_error failed]
      · simp
  | nothingRead none_read =>
      obtain ⟨hlen, hone | ⟨-, hnone⟩⟩ := readDefault_ok none_read
      · have hecho :=
          Trace.Echoing.of_read_send (T := []) hone
            (outflow_readDefault c t) hlen rfl
            (List.prefix_refl [])
        rwa [List.append_nil] at hecho
      · exact .of_quiet hnone (outflow_readDefault c t)
  | writeFailed some_read hne failed =>
      refine Trace.Echoing.of_read_send
        (reads_readDefault_of_ne some_read hne)
        (outflow_readDefault c t)
        (readDefault_ok some_read).1 ?_ ?_
      · simp
      · rw [Trace.outflow_append, Trace.outflow_log,
          List.append_nil]
        exact outflow_writeAll_within live owns _ _
  | echoed some_read hne done =>
      exact Trace.Echoing.of_read_send
        (reads_readDefault_of_ne some_read hne)
        (outflow_readDefault c t)
        (readDefault_ok some_read).1
        (reads_writeAll c _ _)
        (outflow_writeAll_within live owns _ _)

/-- Only a write that fails keeps a round from being even. -/
theorem even_iff
    (live : c.state = .live)
    (owns : c.handle = some h)
    (round : Round c t exit T) :
    T.inflow = T.outflow ↔
      ∀ e, exit ≠ some (.writeFailed e) := by
  cases round with
  | readFailed failed =>
      simp [Trace.inflow, reads_readDefault_error failed]
  | nothingRead none_read =>
      simp [inflow_readDefault none_read]
  | @writeFailed data e r some_read hne failed =>
      have hshort :
          data ≠
            (c.writeAll (c.readDefault t).transport data).trace.outflow := by
        intro hall
        rw [(writeAll_ok_iff live owns _ _).mpr hall.symm] at failed
        cases failed
      have hin :
          Trace.inflow
            ((c.writeAll (c.readDefault t).transport data).trace ++
              [Act.log r]) = [] :=
        Trace.inflow_of_reads_nil (by simp)
      constructor
      · intro heven
        rw [Trace.inflow_append, inflow_readDefault some_read, hin,
          List.append_nil] at heven
        exact absurd (by simpa using heven) hshort
      · intro hnone
        exact absurd rfl (hnone e)
  | @echoed data some_read hne done =>
      have hall := (writeAll_ok_iff live owns _ _).mp done
      have hin :=
        Trace.inflow_of_reads_nil
          (reads_writeAll c (c.readDefault t).transport data)
      simp [inflow_readDefault some_read, hall, hin]

end Round

/-! ## The whole service -/

/-- A service reads at most once more than the transport can deliver, and so it
ends. -/
theorem length_reads_echoLoop_le
    (c : Connection) (t : σ) :
    (c.echoLoop t).trace.reads.length ≤ Transport.supply t + 1 := by
  fun_induction echoLoop c t with
  | case1 t round goes_on ih =>
      have hone : round.trace.reads.length ≤ 1 :=
        (round_echoOnce c t).1.length_reads_le
      have hless : Transport.supply round.transport < Transport.supply t :=
        supply_echoOnce_lt c t goes_on
      simp only [Outcome.after, Trace.reads_append, List.length_append]
      omega
  | case2 t round ends =>
      have hone : round.trace.reads.length ≤ 1 :=
        (round_echoOnce c t).1.length_reads_le
      show round.trace.reads.length ≤ _
      omega

/-- A round after which the service goes on has echoed all that it read. -/
theorem even_of_goes_on
    (live : c.state = .live)
    (owns : c.handle = some h)
    {t : σ}
    (goes_on : (c.echoOnce t).result = true) :
    (c.echoOnce t).trace.inflow = (c.echoOnce t).trace.outflow := by
  obtain ⟨hround, hresult⟩ := round_echoOnce c t
  refine (hround.even_iff live owns).mpr ?_
  intro e hexit
  rw [hexit] at hresult
  rw [hresult] at goes_on
  cases goes_on

/-- Whatever is sent in a service lags by no more than a read. -/
theorem echoing_echoLoop
    (live : c.state = .live)
    (owns : c.handle = some h)
    (t : σ) :
    (c.echoLoop t).trace.Echoing c.settings.readSize.toNat := by
  fun_induction echoLoop c t with
  | case1 t round goes_on ih =>
      have hround : round.trace.Echoing c.settings.readSize.toNat :=
        (round_echoOnce c t).1.echoing live owns
      exact hround.append (even_of_goes_on live owns goes_on) ih
  | case2 t round ends =>
      exact (round_echoOnce c t).1.echoing live owns

/-- A service ends with one last round, and all before it are even. -/
theorem exists_last_round
    (live : c.state = .live)
    (owns : c.handle = some h)
    (t : σ) :
    ∃ (earlier : Trace) (last : σ) (exit : Exit),
      c.exit? last = some exit ∧
      earlier.inflow = earlier.outflow ∧
      (c.echoLoop t).trace = earlier ++ (c.echoOnce last).trace ∧
      (c.echoLoop t).transport = (c.echoOnce last).transport := by
  fun_induction echoLoop c t with
  | case1 t round goes_on ih =>
      obtain ⟨earlier, last, exit, hexit, heven, htrace, htransport⟩ := ih
      refine
        ⟨round.trace ++ earlier, last, exit, hexit, ?_, ?_, htransport⟩
      · have hfirst : round.trace.inflow = round.trace.outflow :=
          even_of_goes_on live owns goes_on
        rw [Trace.inflow_append, Trace.outflow_append, hfirst, heven]
      · simp only [Outcome.after, htrace, List.append_assoc]
  | case2 t round ends =>
      obtain ⟨-, hresult⟩ := round_echoOnce c t
      cases hexit : c.exit? t with
      | none =>
          rw [hexit] at hresult
          exact absurd hresult ends
      | some exit =>
          exact ⟨[], t, exit, hexit, rfl, rfl, rfl⟩

/-! ## Parting -/

/-- Calls that are made again and again are no parting, if one of them is
none. -/
theorem filter_isParting_retried
    {α : Type} {made : Except Fault α → Call}
    {answer : Except Fault α} {T : Trace}
    (retried : Retried h made answer T)
    (hmade : ∀ r, Act.isParting (.call h (made r)) = false) :
    T.filter Act.isParting = [] := by
  rw [List.filter_eq_nil_iff]
  intro a ha
  obtain ⟨r, rfl⟩ := retried.acts ha
  simp [hmade r]

@[simp] theorem filter_isParting_write
    (c : Connection) (t : σ) (data : Bytes) :
    (c.write t data).trace.filter Act.isParting = [] := by
  have hsent : ∀ r, (c.sent r).filter Act.isParting = [] := by
    intro r
    cases r <;> rfl
  rcases write_cases c t data with
    ⟨-, hw⟩ | ⟨-, hw⟩ | ⟨h, answer, T, -, -, -, retried, -, htrace⟩
  · rw [hw]
    rfl
  · rw [hw]
    exact hsent (.ok 0)
  · rw [htrace, List.filter_append, hsent,
      filter_isParting_retried retried (fun _ => rfl)]
    rfl

@[simp] theorem filter_isParting_writeAll
    (c : Connection) (t : σ) (data : Bytes) :
    (c.writeAll t data).trace.filter Act.isParting = [] := by
  rw [List.filter_eq_nil_iff]
  intro a mem
  obtain ⟨u, offered, ha⟩ := exists_write_of_mem_writeAll mem
  exact List.filter_eq_nil_iff.mp
    (filter_isParting_write c u offered) a ha

@[simp] theorem filter_isParting_readDefault
    (c : Connection) (t : σ) :
    (c.readDefault t).trace.filter Act.isParting = [] := by
  have hreceived : ∀ r, (c.received r).filter Act.isParting = [] := by
    intro r
    cases r <;> rfl
  unfold readDefault
  rcases read_cases c t c.settings.readSize.toNat with
    ⟨-, hr⟩ | ⟨h, answer, T, -, -, retried, -, htrace⟩
  · rw [hr]
    rfl
  · rw [htrace, List.filter_append, hreceived,
      filter_isParting_retried retried (fun _ => rfl)]
    rfl

@[simp] theorem filter_isParting_echoRead
    (c : Connection) (t : σ) :
    (c.echoRead t).trace.filter Act.isParting = [] := by
  simp only [echoRead]
  split
  · rw [List.filter_append, filter_isParting_readDefault]
    rfl
  · exact filter_isParting_readDefault c t
  · exact filter_isParting_readDefault c t

@[simp] theorem filter_isParting_echoWrite
    (c : Connection) (t : σ) (data : Bytes) :
    (c.echoWrite t data).trace.filter Act.isParting = [] := by
  simp only [echoWrite]
  split
  · rw [List.filter_append, filter_isParting_write]
    rfl
  · rw [List.filter_append, filter_isParting_write]
    rfl
  · exact filter_isParting_write c t data

theorem Round.filter_isParting
    {t : σ} {exit : Option Exit} {T : Trace}
    (round : Round c t exit T) :
    T.filter Act.isParting = [] := by
  cases round with
  | readFailed failed => simp [Act.isParting]
  | nothingRead none_read => simp
  | writeFailed some_read hne failed => simp [Act.isParting]
  | echoed some_read hne done => simp

/-- There is no parting before the service has ended. -/
theorem filter_isParting_echoLoop
    (c : Connection) (t : σ) :
    (c.echoLoop t).trace.filter Act.isParting = [] := by
  fun_induction echoLoop c t with
  | case1 t round goes_on ih =>
      have hround : round.trace.filter Act.isParting = [] :=
        (round_echoOnce c t).1.filter_isParting
      simp only [Outcome.after, List.filter_append, hround, ih,
        List.append_nil]
  | case2 t round ends =>
      exact (round_echoOnce c t).1.filter_isParting

/-- Closing a connection shuts its handle down, gives it back and says so, each
once, and moves nothing. -/
theorem leave_parts
    (owns : c.handle = some h)
    (t : σ) :
    (∃ answer,
      (c.leave t).trace.filter Act.isParting =
        [.call h (.shutdown answer), .call h .release,
          .emit (.closed c.id)]) ∧
    (c.leave t).trace.reads = [] ∧
    (c.leave t).trace.outflow = [] := by
  obtain
    ⟨answer, ⟨hresult, htrace⟩ | ⟨hresult, _, htrace⟩ |
      ⟨_, hresult, htrace⟩⟩ := close_cases owns t
  · simp only [leave, hresult, htrace]
    exact ⟨⟨answer, rfl⟩, rfl, rfl⟩
  · simp only [leave, hresult, htrace]
    exact ⟨⟨answer, rfl⟩, rfl, rfl⟩
  · simp only [leave, hresult, htrace]
    exact ⟨⟨answer, rfl⟩, rfl, rfl⟩

/-- What a service does after its rounds. -/
def parting (c : Connection) (t : σ) : Trace :=
  [.deregister c.id] ++ (c.leave t).trace ++ [.returnPermit]

/-- The trace of a service: a greeting, the rounds, and the parting. -/
theorem serve_trace
    (c : Connection) (t : σ) :
    (c.serve t).trace =
      [c.greeting] ++ (c.echoLoop t).trace ++
        c.parting (c.echoLoop t).transport := by
  simp [serve, parting, Outcome.after]

/-- The parting goes through all that belongs to it, in order and each once,
and moves nothing. -/
theorem parting_parts
    (owns : c.handle = some h)
    (t : σ) :
    (∃ answer,
      (c.parting t).filter Act.isParting =
        [.deregister c.id, .call h (.shutdown answer),
          .call h .release, .emit (.closed c.id), .returnPermit]) ∧
    (c.parting t).reads = [] ∧
    (c.parting t).outflow = [] := by
  obtain ⟨⟨answer, hleave⟩, hreads, hout⟩ := leave_parts owns t
  refine ⟨⟨answer, ?_⟩, ?_, ?_⟩
  · rw [parting, List.filter_append, List.filter_append, hleave]
    rfl
  · rw [parting, Trace.reads_append, Trace.reads_append, hreads]
    rfl
  · rw [parting, Trace.outflow_append, Trace.outflow_append, hout]
    rfl

/-- Only the rounds of a service move anything. -/
theorem serve_flows
    (owns : c.handle = some h)
    (t : σ) :
    (c.serve t).trace.reads = (c.echoLoop t).trace.reads ∧
    (c.serve t).trace.outflow = (c.echoLoop t).trace.outflow := by
  obtain ⟨-, hreads, hout⟩ :=
    parting_parts owns (c.echoLoop t).transport
  constructor
  · rw [serve_trace, Trace.reads_append, Trace.reads_append, hreads,
      List.append_nil]
    rfl
  · rw [serve_trace, Trace.outflow_append, Trace.outflow_append, hout,
      List.append_nil]
    rfl

/-- What comes in with a service and what goes out are the same unless its last
round ends with a write that fails. -/
theorem serve_even_iff
    (live : c.state = .live)
    (owns : c.handle = some h)
    {t last : σ} {earlier : Trace} {exit : Exit}
    (hexit : c.exit? last = some exit)
    (heven : earlier.inflow = earlier.outflow)
    (hloop :
      (c.echoLoop t).trace = earlier ++ (c.echoOnce last).trace) :
    (c.serve t).trace.inflow = (c.serve t).trace.outflow ↔
      ∀ e, exit ≠ .writeFailed e := by
  obtain ⟨hreads, hout⟩ := serve_flows owns t
  have hround :=
    (round_echoOnce c last).1.even_iff live owns
  have hin :
      (c.serve t).trace.inflow =
        earlier.outflow ++ (c.echoOnce last).trace.inflow := by
    rw [Trace.inflow, hreads, hloop, ← heven]
    exact Trace.inflow_append _ _
  rw [hin, hout, hloop, Trace.outflow_append,
    List.append_right_inj, hround, hexit]
  simp

/--
**The echo of one connection**, over any transport.

* The service ends: it reads at most once more than the transport can deliver.
* At every moment what was sent is a prefix of what was read, and lags by no
  more than the last read.
* There is a last round, and all that was read has been sent unless a write of
  that round failed; so nothing is missing if it read nothing.
* However it ends, the parting comes after the rounds, and in this order: the
  connection leaves the register, its handle is shut down and given back, it is
  told that the connection is closed, and the permit goes back; each once.
-/
theorem serve_echoes
    (live : c.state = .live)
    (owns : c.handle = some h)
    (t : σ) :
    (c.serve t).trace.reads.length ≤ Transport.supply t + 1 ∧
    (c.serve t).trace.Echoing c.settings.readSize.toNat ∧
    ∃ (rounds : Trace) (last : σ) (exit : Exit) (farewell : Trace)
        (answer : Except Fault Unit),
      (c.serve t).trace =
        rounds ++ (c.echoOnce last).trace ++ farewell ∧
      c.exit? last = some exit ∧
      ((c.serve t).trace.inflow = (c.serve t).trace.outflow ↔
        ∀ e, exit ≠ .writeFailed e) ∧
      rounds.filter Act.isParting = [] ∧
      (c.echoOnce last).trace.filter Act.isParting = [] ∧
      farewell.filter Act.isParting =
        [.deregister c.id, .call h (.shutdown answer),
          .call h .release, .emit (.closed c.id), .returnPermit] := by
  obtain ⟨⟨answer, hparting⟩, hend_reads, hend_out⟩ :=
    parting_parts owns (c.echoLoop t).transport
  obtain ⟨earlier, last, exit, hexit, heven, hloop, -⟩ :=
    exists_last_round live owns t
  refine ⟨?_, ?_, ?_⟩
  · rw [(serve_flows owns t).1]
    exact length_reads_echoLoop_le c t
  · have hgreeting : Trace.Echoing c.settings.readSize.toNat [c.greeting] :=
      .of_quiet rfl rfl
    have hrounds := hgreeting.append rfl (echoing_echoLoop live owns t)
    rw [serve_trace]
    exact hrounds.append_quiet hend_reads hend_out
  · refine
      ⟨[c.greeting] ++ earlier, last, exit,
        c.parting (c.echoLoop t).transport, answer, ?_, hexit,
        serve_even_iff live owns hexit heven hloop, ?_,
        (round_echoOnce c last).1.filter_isParting, hparting⟩
    · rw [serve_trace, hloop]
      simp only [List.append_assoc]
    · have hnone := filter_isParting_echoLoop c t
      rw [hloop, List.filter_append, List.append_eq_nil_iff] at hnone
      rw [List.filter_append, hnone.1]
      rfl

/-- The service of a peer who sends five octets in two pieces, read in threes,
over a transport that takes them two at a time and is broken off once. -/
theorem serve_echoes_pieces :
    let c : Connection :=
      ⟨some ⟨0, 0⟩, 42, "203.0.113.5:51000", .live,
        { readSize := 3 }⟩
    let t : Script :=
      { descriptor := 42
        peer := .ok "203.0.113.5:51000"
        reads :=
          [.chunk [1, 2, 3, 4] none, .fault (.system 4),
            .chunk [5] none]
        writes := [.ok 2, .error (.system 4)] }
    c.state = .live ∧
    c.handle = some ⟨0, 0⟩ ∧
    (c.serve t).trace.outflow = [1, 2, 3, 4, 5] ∧
    (c.serve t).trace.reads = [[1, 2, 3], [4], [5], []] ∧
    (c.serve t).trace.Echoing 3 ∧
    ∃ (rounds : Trace) (last : Script) (exit : Exit) (farewell : Trace)
        (answer : Except Fault Unit),
      (c.serve t).trace =
        rounds ++ (c.echoOnce last).trace ++ farewell ∧
      c.exit? last = some exit ∧
      ((c.serve t).trace.inflow = (c.serve t).trace.outflow ↔
        ∀ e, exit ≠ .writeFailed e) ∧
      rounds.filter Act.isParting = [] ∧
      (c.echoOnce last).trace.filter Act.isParting = [] ∧
      farewell.filter Act.isParting =
        [.deregister 42, .call ⟨0, 0⟩ (.shutdown answer),
          .call ⟨0, 0⟩ .release, .emit (.closed 42),
          .returnPermit] := by
  intro c t
  obtain ⟨-, hecho, hend⟩ :=
    serve_echoes (c := c) (h := ⟨0, 0⟩) rfl rfl t
  exact ⟨rfl, rfl, by cbv, by cbv, hecho, hend⟩

end Connection

end StreamServer
