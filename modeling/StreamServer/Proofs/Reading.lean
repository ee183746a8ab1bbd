import Mathlib
import StreamServer.Proofs.EventLog
import StreamServer.Transport.Script

/-!
# What reading delivers

Whatever is done on a line, its transport has gone the way of the calls in the
trace, one after the other.  So what a call does with the octets that a transport
has still to deliver is all there is to say: it brings some of them from the
front, or it leaves them.  Nothing else on a line touches them, and a read
returns what its calls have brought.
-/

namespace StreamServer

/-! ## The way of a transport -/

namespace Transport

variable {σ : Type} [Transport σ]

/-- A call with what a transport answers, and the transport after it. -/
inductive Answers : σ → Call → σ → Prop
  | peer (t : σ) :
      Answers t (.peer (Transport.peer t)) t
  | receive (t : σ) (room : Nat) :
      Answers t (.receive room (Transport.receive t room).1)
        (Transport.receive t room).2
  | send (t : σ) (data : Bytes) :
      Answers t (.send data (Transport.send t data).1)
        (Transport.send t data).2
  | shutdown (t : σ) :
      Answers t (.shutdown (Transport.shutdown t).1)
        (Transport.shutdown t).2
  | duplicate (t : σ) :
      Answers t (.duplicate (Transport.duplicate t).1)
        (Transport.duplicate t).2
  | release (t : σ) :
      Answers t .release (Transport.release t)

/-- The calls of a trace, each made on what the one before it has left, lead from
one state of a transport to another. -/
inductive Leads : σ → Trace → σ → Prop
  | nil
      {t : σ} :
      Leads t [] t
  | call
      {t u v : σ} {h : Handle} {k : Call} {T : Trace}
      (now : Answers t k u)
      (rest : Leads u T v) :
      Leads t (.call h k :: T) v
  | note
      {t v : σ} {a : Act} {T : Trace}
      (quiet : ∀ h k, a ≠ .call h k)
      (rest : Leads t T v) :
      Leads t (a :: T) v

namespace Leads

variable {t u v : σ} {S T : Trace}

theorem append
    (first : Leads t S u)
    (second : Leads u T v) :
    Leads t (S ++ T) v := by
  induction first with
  | nil => exact second
  | call now _ ih => exact .call now (ih second)
  | note quiet _ ih => exact .note quiet (ih second)

theorem single
    {h : Handle} {k : Call}
    (now : Answers t k u) :
    Leads t [.call h k] u :=
  .call now .nil

theorem of_emit
    (e : Event)
    (rest : Leads t T v) :
    Leads t (.emit e :: T) v :=
  .note (by simp) rest

theorem of_log
    (r : LogRecord)
    (rest : Leads t T v) :
    Leads t (.log r :: T) v :=
  .note (by simp) rest

end Leads

end Transport

namespace Connection

open Transport (Leads)

variable {σ : Type} [Transport σ]

theorem leads_sendThrough
    (h : Handle) (t : σ) (data : Bytes) :
    Leads t (sendThrough h t data).trace
      (sendThrough h t data).transport := by
  fun_induction sendThrough h t data with
  | case1 t => exact .single (.send t data)
  | case2 t _ f _ again ih => exact .call (.send t data) ih
  | case3 t => exact .single (.send t data)

theorem leads_receiveThrough
    (h : Handle) (t : σ) (room : Nat) :
    Leads t (receiveThrough h t room).trace
      (receiveThrough h t room).transport := by
  fun_induction receiveThrough h t room with
  | case1 t => exact .single (.receive t room)
  | case2 t _ f _ again ih => exact .call (.receive t room) ih
  | case3 t => exact .single (.receive t room)

theorem leads_write
    (c : Connection) (t : σ) (data : Bytes) :
    Leads t (c.write t data).trace (c.write t data).transport := by
  have hsent : ∀ (u : σ) (r : Except ConnectionError Nat),
      Leads u (c.sent r) u := by
    intro u r
    cases r with
    | ok n => exact .of_emit _ .nil
    | error e => exact .nil
  unfold write
  split
  · split
    · exact hsent t (.ok 0)
    · exact (leads_sendThrough _ t data).append (hsent _ _)
  · exact .nil

theorem leads_writeAll
    (c : Connection) (t : σ) (data : Bytes) :
    Leads t (c.writeAll t data).trace (c.writeAll t data).transport := by
  fun_induction writeAll c t data with
  | case1 t => exact .nil
  | case2 t b rest o => exact leads_write c t (b :: rest)
  | case3 t b rest o => exact leads_write c t (b :: rest)
  | case4 t b rest o n _ ih =>
      exact (leads_write c t (b :: rest)).append ih

theorem leads_read
    (c : Connection) (t : σ) (wanted : Nat) :
    Leads t (c.read t wanted).trace (c.read t wanted).transport := by
  unfold read
  split
  · refine (leads_receiveThrough _ t _).append ?_
    cases c.readResult wanted _ with
    | ok data => exact .of_emit _ .nil
    | error e => exact .nil
  · exact .nil

theorem leads_close
    (c : Connection) (t : σ) :
    Leads t (c.close t).trace (c.close t).transport := by
  unfold close
  split
  · exact .of_emit _ .nil
  · dsimp only
    split
    · exact .call (.shutdown t) (.call (.release _) (.of_emit _ .nil))
    · split
      · exact .call (.shutdown t)
          (.call (.release _) (.of_log _ (.of_emit _ .nil)))
      · exact .call (.shutdown t)
          (.call (.release _) (.of_emit _ (.of_emit _ .nil)))

theorem leads_drop
    (c : Connection) (t : σ) :
    Leads t (c.drop t).trace (c.drop t).transport := by
  unfold drop
  split
  · exact .nil
  · exact .of_log _ (.single (.release t))

theorem leads_interrupter
    (c : Connection) (t : σ) (serial : Nat) :
    Leads t (c.interrupter t serial).trace
      (c.interrupter t serial).transport := by
  unfold interrupter
  split
  · exact .nil
  · exact .single (.duplicate t)

end Connection

namespace Line

open Transport (Leads)

variable {σ : Type} [Transport σ]

theorem leads_onConnection
    (l : Line σ) (c : Connection) (a : LineStep) :
    Leads l.transport (l.onConnection c a).2.2
      (l.onConnection c a).2.1.transport := by
  cases a with
  | write data => exact c.leads_write l.transport data
  | writeAll data => exact c.leads_writeAll l.transport data
  | read wanted => exact c.leads_read l.transport wanted
  | readDefault => exact c.leads_read l.transport _
  | close => exact c.leads_close l.transport
  | drop => exact c.leads_drop l.transport
  | interrupter =>
      have hmade := c.leads_interrupter l.transport l.handles
      simp only [onConnection]
      split <;> exact hmade
  | interrupt place => exact .nil
  | dropInterrupter place => exact .nil

/-- In every step the transport of a line goes the way of the calls. -/
theorem leads_step
    (l : Line σ) (a : LineStep) :
    Leads l.transport (l.step a).2.2 (l.step a).2.1.transport := by
  cases a with
  | interrupt place =>
      simp only [step]
      cases l.interrupter? place with
      | none => exact .nil
      | some i => exact .of_log _ (.single (.shutdown _))
  | dropInterrupter place =>
      simp only [step]
      cases l.interrupter? place with
      | none => exact .nil
      | some i => exact .single (.release _)
  | _ =>
      simp only [step]
      cases l.connection with
      | none => exact .nil
      | some c => exact l.leads_onConnection c _

theorem leads_run
    (l : Line σ) (steps : List LineStep) :
    Leads l.transport (l.run steps).2 (l.run steps).1.transport := by
  induction steps generalizing l with
  | nil => exact .nil
  | cons a rest ih => exact (l.leads_step a).append (ih _)

end Line

/-! ## What reads return -/

/-- What an answer has delivered. -/
def Answer.octets : Answer → Bytes
  | .data (.ok bs) => bs
  | _ => []

namespace Connection

variable {σ : Type} [Transport σ]

theorem inflow_read
    (c : Connection) (t : σ) (wanted : Nat) :
    (c.read t wanted).trace.inflow =
      Answer.octets (.data (c.read t wanted).result) := by
  cases hresult : (c.read t wanted).result with
  | error e => exact Trace.inflow_of_reads_nil (reads_read_error hresult)
  | ok data => exact inflow_read_ok hresult

end Connection

namespace Line

variable {σ : Type} [Transport σ]

/-- What the reads of a run have delivered, in order. -/
def delivered (l : Line σ) : List LineStep → Bytes
  | [] => []
  | a :: rest => (l.step a).1.octets ++ (l.step a).2.1.delivered rest

theorem inflow_onConnection
    (l : Line σ) (c : Connection) (a : LineStep) :
    (l.onConnection c a).2.2.inflow = (l.onConnection c a).1.octets := by
  cases a with
  | write data =>
      exact Trace.inflow_of_reads_nil (c.reads_write l.transport data)
  | writeAll data =>
      exact Trace.inflow_of_reads_nil (c.reads_writeAll l.transport data)
  | read wanted => exact c.inflow_read l.transport wanted
  | readDefault => exact c.inflow_read l.transport _
  | close => exact Trace.inflow_of_reads_nil (c.close_still l.transport).2
  | drop =>
      simp only [onConnection, Connection.drop]
      split <;> rfl
  | interrupter =>
      simp only [onConnection, Connection.interrupter]
      split <;> split <;> rfl
  | interrupt place => rfl
  | dropInterrupter place => rfl

/-- A step delivers what its calls have brought. -/
theorem inflow_step
    (l : Line σ) (a : LineStep) :
    (l.step a).2.2.inflow = (l.step a).1.octets := by
  cases a with
  | interrupt place =>
      simp only [step]
      cases l.interrupter? place <;> rfl
  | dropInterrupter place =>
      simp only [step]
      cases l.interrupter? place <;> rfl
  | _ =>
      simp only [step]
      cases l.connection with
      | none => rfl
      | some c => exact l.inflow_onConnection c _

theorem inflow_run
    (l : Line σ) (steps : List LineStep) :
    (l.run steps).2.inflow = l.delivered steps := by
  induction steps generalizing l with
  | nil => rfl
  | cons a rest ih =>
      rw [run_cons, Trace.inflow_append, inflow_step, ih]
      rfl

end Line

/-! ## Scripts -/

/-- An answer that counts what it brings. -/
def ReadAnswer.Honest : ReadAnswer → Prop
  | .fault _ => True
  | .chunk _ claim => claim = none

theorem Filled.taken_honest
    {bs : Bytes} {room : Nat}
    (fits : bs.length ≤ room) :
    (Filled.honest bs).taken room = bs := by
  simp only [Filled.taken, Filled.buffer, Filled.honest,
    List.take_of_length_le fits, Nat.min_eq_left fits]
  exact List.take_left

namespace Script

variable {s t u : Script}

/-- A script whose answers to reads all count what they bring. -/
def Honest (s : Script) : Prop :=
  ∀ a ∈ s.reads, a.Honest

/-- The octets still to be delivered: those left over from an answer already
begun, then those of the answers not yet reached. -/
def pending (s : Script) : Bytes :=
  s.leftover ++ s.reads.flatMap ReadAnswer.octets

/-- A read brings octets from the front of those still to be delivered; one that
fails leaves them all. -/
theorem receive_pending
    (honest : s.Honest) (room : Nat) :
    (s.receive room).2.Honest ∧
      (match (s.receive room).1 with
        | .ok f => f.taken room
        | .error _ => []) ++ (s.receive room).2.pending = s.pending := by
  have hroom : ∀ bs : Bytes, (bs.take room).length ≤ room :=
    fun bs => List.length_take_le room bs
  by_cases begun : s.leftover = []
  · cases reads : s.reads with
    | nil =>
        rw [receive, if_neg (by simpa using begun), reads]
        exact ⟨honest, by simp [Filled.taken_honest]⟩
    | cons a rest =>
        rw [Honest, reads, List.forall_mem_cons] at honest
        obtain ⟨hnow, hrest⟩ := honest
        cases a with
        | fault f =>
            rw [receive, if_neg (by simpa using begun), reads]
            refine ⟨hrest, ?_⟩
            simp [pending, begun, reads, ReadAnswer.octets]
        | chunk data claim =>
            cases hnow
            rw [receive, if_neg (by simpa using begun), reads]
            refine ⟨hrest, ?_⟩
            have htaken := Filled.taken_honest (hroom data)
            simp only [Filled.honest] at htaken
            simp only [Option.getD_none, htaken]
            simp [pending, begun, reads, ReadAnswer.octets,
              ← List.append_assoc]
  · rw [receive, if_pos begun]
    refine ⟨honest, ?_⟩
    simp [Filled.taken_honest, pending, ← List.append_assoc]

/-- Another script has the same to deliver, in the same pieces. -/
def SameReads (s t : Script) : Prop :=
  t.leftover = s.leftover ∧ t.reads = s.reads

namespace SameReads

theorem honest_iff
    (same : SameReads s t) :
    t.Honest ↔ s.Honest := by
  rw [Honest, Honest, same.2]

theorem pending_eq
    (same : SameReads s t) :
    t.pending = s.pending := by
  rw [pending, pending, same.1, same.2]

theorem supply_eq
    (same : SameReads s t) :
    t.supply = s.supply := by
  rw [supply, supply, same.1, same.2]

end SameReads

/-- No call but a read touches what is still to be delivered. -/
theorem answers_cases
    {k : Call}
    (answers : Transport.Answers t k u) :
    (∃ room, k = .receive room (t.receive room).1 ∧
      u = (t.receive room).2) ∨
    (SameReads t u ∧ ∀ h, (Act.call h k).brought? = none) := by
  cases answers with
  | receive room => exact Or.inl ⟨room, rfl, rfl⟩
  | peer => exact Or.inr ⟨⟨rfl, rfl⟩, fun _ => rfl⟩
  | send data =>
      refine Or.inr ⟨?_, fun _ => rfl⟩
      show SameReads t (t.send data).2
      unfold send
      split <;> exact ⟨rfl, rfl⟩
  | shutdown =>
      refine Or.inr ⟨?_, fun _ => rfl⟩
      show SameReads t t.shutdown.2
      unfold shutdown
      split <;> exact ⟨rfl, rfl⟩
  | duplicate =>
      refine Or.inr ⟨?_, fun _ => rfl⟩
      show SameReads t t.duplicate.2
      unfold duplicate
      split <;> exact ⟨rfl, rfl⟩
  | release => exact Or.inr ⟨⟨rfl, rfl⟩, fun _ => rfl⟩

/-- What the calls of a trace have brought has gone from the front of what was to
be delivered, and nothing else has. -/
theorem leads_pending
    {T : Trace}
    (honest : t.Honest)
    (leads : Transport.Leads t T u) :
    T.inflow ++ u.pending = t.pending := by
  induction leads with
  | nil => rfl
  | @call t u v h k T now _ ih =>
      have hcons : Trace.inflow (.call h k :: T) =
          ((Act.call h k).brought?.getD []) ++ T.inflow := by
        cases hbrought : (Act.call h k).brought? <;>
          simp [Trace.inflow, Trace.reads, hbrought]
      rw [hcons, List.append_assoc]
      rcases answers_cases now with ⟨room, rfl, rfl⟩ | ⟨same, hnone⟩
      · obtain ⟨hnext, hbalance⟩ := receive_pending honest room
        rw [ih hnext, ← hbalance]
        cases (t.receive room).1 <;> rfl
      · rw [hnone, ih (same.honest_iff.mpr honest), same.pending_eq]
        rfl
  | @note t v a T quiet _ ih =>
      have hcons : Trace.inflow (a :: T) = T.inflow := by
        cases a with
        | call h k => exact absurd rfl (quiet h k)
        | _ => rfl
      rw [hcons]
      exact ih honest

/-! ## Reading on -/

/-- No call makes more to be delivered. -/
theorem leads_supply_le
    {T : Trace}
    (leads : Transport.Leads t T u) :
    u.supply ≤ t.supply := by
  induction leads with
  | nil => exact Nat.le_refl _
  | @call t u v h k T now _ ih =>
      refine Nat.le_trans ih ?_
      rcases answers_cases now with ⟨room, -, rfl⟩ | ⟨same, -⟩
      · exact t.supply_receive_le room
      · exact Nat.le_of_eq same.supply_eq
  | note _ _ ih => exact ih

theorem pending_eq_nil_of_supply
    (exhausted : s.supply = 0) :
    s.pending = [] := by
  unfold supply at exhausted
  have hleftover : s.leftover = [] := by
    rw [← List.length_eq_zero_iff]
    omega
  cases reads : s.reads with
  | nil => simp [pending, hleftover, reads]
  | cons a rest =>
      rw [reads, List.foldr_cons] at exhausted
      omega

/-- Whoever makes room for something uses some of it up. -/
theorem supply_receive_lt_of_pos
    {room : Nat}
    (some_room : 0 < room)
    (some_left : 0 < s.supply) :
    (s.receive room).2.supply < s.supply := by
  by_cases begun : s.leftover = []
  · cases reads : s.reads with
    | nil => simp [supply, begun, reads] at some_left
    | cons a rest =>
        rw [receive, if_neg (by simpa using begun), reads]
        cases a with
        | fault f =>
            simp only [supply, reads, List.foldr_cons]
            omega
        | chunk data claim =>
            simp only [supply, reads, List.foldr_cons, begun,
              ReadAnswer.octets, List.length_drop, List.length_nil]
            omega
  · have hlength := List.length_pos_iff.mpr begun
    rw [receive, if_pos begun]
    simp only [supply, List.length_drop]
    omega

theorem supply_receiveThrough_lt
    (h : Handle)
    {room : Nat}
    (some_room : 0 < room)
    (some_left : 0 < t.supply) :
    (Connection.receiveThrough h t room).transport.supply < t.supply := by
  have hnow : (Transport.receive t room).2.supply < t.supply :=
    supply_receive_lt_of_pos some_room some_left
  unfold Connection.receiveThrough
  dsimp only
  split
  · exact hnow
  · split
    · exact Nat.lt_of_le_of_lt
        (leads_supply_le (Connection.leads_receiveThrough h _ room)) hnow
    · exact hnow

/-- A read of something uses up some of what is left. -/
theorem supply_read_lt
    {c : Connection}
    (valid : c.isValid = true)
    {wanted : Nat}
    (some_wanted : 0 < wanted)
    (some_left : 0 < t.supply) :
    (c.read t wanted).transport.supply < t.supply := by
  simp only [Connection.isValid, Bool.and_eq_true, beq_iff_eq,
    Option.isSome_iff_exists] at valid
  obtain ⟨live, h, owns⟩ := valid
  have some_room : 0 < min wanted maxReadSize :=
    Nat.lt_min.mpr ⟨some_wanted, by decide⟩
  simp only [Connection.read, live, owns]
  exact supply_receiveThrough_lt h some_room some_left

end Script

/-- Whether a step on a connection reads with some room. -/
def LineStep.asks (c : Connection) : LineStep → Bool
  | .read wanted => 0 < wanted
  | .readDefault => 0 < c.settings.readSize.toNat
  | _ => false

namespace Line

variable {l : Line Script} {c : Connection}

theorem supply_step_le
    (hc : l.connection = some c)
    (valid : c.isValid = true)
    (a : LineStep) :
    (l.step a).2.1.transport.supply ≤
      l.transport.supply - (if a.asks c then 1 else 0) := by
  have hle := Script.leads_supply_le (l.leads_step a)
  have hread : ∀ wanted, 0 < wanted →
      (c.read l.transport wanted).transport.supply ≤
        l.transport.supply - 1 := by
    intro wanted some_wanted
    by_cases some_left : 0 < l.transport.supply
    · have hlt := Script.supply_read_lt valid some_wanted some_left
      omega
    · have hread := Script.leads_supply_le (c.leads_read l.transport wanted)
      omega
  by_cases asks : a.asks c = true
  · rw [if_pos asks]
    cases a with
    | read wanted =>
        simp only [step, hc, onConnection, moved]
        exact hread wanted (by simpa [LineStep.asks] using asks)
    | readDefault =>
        simp only [step, hc, onConnection, moved]
        exact hread _ (by simpa [LineStep.asks] using asks)
    | _ => cases asks
  · rw [if_neg asks]
    exact hle

/-- Each read with some room uses up some of what is left. -/
theorem supply_run_le
    (hc : l.connection = some c)
    (valid : c.isValid = true)
    {steps : List LineStep}
    (unclosed : .close ∉ steps)
    (kept : .drop ∉ steps) :
    (l.run steps).1.transport.supply ≤
      l.transport.supply - steps.countP (LineStep.asks c) := by
  induction steps generalizing l with
  | nil => exact Nat.le_refl _
  | cons a rest ih =>
      simp only [List.mem_cons, not_or] at unclosed kept
      have hnext : (l.step a).2.1.connection = some c := by
        rw [connection_next hc kept.1, if_neg (Ne.symm unclosed.1)]
      have hnow := supply_step_le hc valid a
      have hlater := ih hnext unclosed.2 kept.2
      rw [run_cons, List.countP_cons]
      dsimp only
      omega

/--
**Reading loses nothing**, on any line over a script whose answers to reads count
what they bring, and after any run of steps: reads of any size, on a connection
that is open or not, and whatever else is done between them.

* What the reads have delivered, then what is left over of an answer already
  begun, then the octets of the answers not yet reached, is what there was to
  deliver at first.
* Of two runs, however their reads are sized, one has delivered a beginning of
  what the other has.
* While the connection is open, reads that ask for something come to the end:
  when there have been as many as the script has octets and answers, everything
  has been delivered.
-/
theorem reads_lose_nothing
    (honest : l.transport.Honest)
    (steps : List LineStep) :
    let last := (l.run steps).1.transport
    l.delivered steps ++ last.leftover ++
        last.reads.flatMap ReadAnswer.octets =
      l.transport.pending ∧
    (∀ others,
      l.delivered steps <+: l.delivered others ∨
        l.delivered others <+: l.delivered steps) ∧
    (∀ c,
      l.connection = some c →
      c.isValid = true →
      .close ∉ steps →
      .drop ∉ steps →
      l.transport.supply ≤ steps.countP (LineStep.asks c) →
        l.delivered steps = l.transport.pending) := by
  intro last
  have hbalance : ∀ some_steps,
      l.delivered some_steps ++
          (l.run some_steps).1.transport.pending =
        l.transport.pending := by
    intro some_steps
    rw [← inflow_run]
    exact Script.leads_pending honest (l.leads_run some_steps)
  refine ⟨?all, ?sizes, ?ends⟩
  case all =>
    rw [List.append_assoc]
    exact hbalance steps
  case sizes =>
    intro others
    exact List.prefix_or_prefix_of_prefix
      ⟨_, hbalance steps⟩ ⟨_, hbalance others⟩
  case ends =>
    intro c hc valid unclosed kept enough
    have hsupply := supply_run_le hc valid unclosed kept
    rw [Nat.sub_eq_zero_of_le enough, Nat.le_zero] at hsupply
    have hnone := Script.pending_eq_nil_of_supply hsupply
    have hsteps := hbalance steps
    rwa [hnone, List.append_nil] at hsteps

/-- Reads of no, few and very many octets over answers that are broken off, have
nothing yet, or fail. -/
theorem reads_lose_nothing_among_faults :
    let t : Script :=
      { descriptor := 42
        peer := .ok "203.0.113.5:51000"
        reads :=
          [.fault (.bare .interrupted), .chunk [1, 2, 3] none,
            .fault (.bare .wouldBlock), .chunk [] none,
            .fault (.bare .timedOut), .chunk [4] none] }
    let opened := Line.open 0 {} t
    let steps : List LineStep :=
      [.read 0, .read 2, .write [9], .read (maxReadSize + 1),
        .readDefault, .read (2 ^ 64 - 1), .read 1, .interrupter,
        .read 1, .read 1, .read 1, .read 1, .read 1]
    opened = (.ok (), opened.2.1, opened.2.2) ∧
    opened.2.1.transport.Honest ∧
    opened.2.1.delivered steps = [1, 2, 3, 4] := by
  intro t opened steps
  have honest : opened.2.1.transport.Honest := by
    simp [opened, Line.open, Connection.adopt, t, Script.Honest,
      ReadAnswer.Honest, Transport.peer]
  obtain ⟨-, -, hends⟩ := reads_lose_nothing honest steps
  exact ⟨rfl, honest, hends _ rfl rfl (by decide) (by decide) (by decide)⟩

end Line

end StreamServer
