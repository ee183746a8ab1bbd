import StreamServer.Proofs.ServerSteps

/-!
# The service of a task

A task of a server reads and writes in steps of its own, between which anything
can happen to the server.  If nothing does, its steps come to the service of its
connection: the writes that follow a read echo what was read to its end, and all
rounds together are the loop that ends when nothing is read or something fails.

So a task can always be brought to the end of its service by its own steps.
-/

namespace StreamServer

namespace Connection

variable {σ : Type} [Transport σ]

theorem echoAll_nil
    (c : Connection) (t : σ) :
    c.echoAll t [] = ⟨true, t, []⟩ := by
  simp only [echoAll, writeAll]

/-- What is echoed is written once, and then what is left of it. -/
theorem echoAll_cons
    (c : Connection) (t : σ) (b : UInt8) (rest : Bytes) :
    let o := c.echoWrite t (b :: rest)
    c.echoAll t (b :: rest) =
      match o.result with
      | none => ⟨false, o.transport, o.trace⟩
      | some left => (c.echoAll o.transport left).after o.trace := by
  simp only [echoAll, writeAll, echoWrite]
  cases written : (c.write t (b :: rest)).result with
  | error e => rfl
  | ok n =>
      cases n with
      | zero => rfl
      | succ n =>
          simp only [List.drop_succ_cons, Outcome.after]
          cases (c.writeAll (c.write t (b :: rest)).transport
              (rest.drop n)).result with
          | error e => simp only [List.append_assoc]
          | ok => rfl

/-- A write after which the service goes on has taken something. -/
theorem length_lt_of_echoWrite
    {c : Connection} {t : σ} {b : UInt8} {rest left : Bytes}
    (goes_on : (c.echoWrite t (b :: rest)).result = some left) :
    left.length < (b :: rest).length := by
  simp only [echoWrite] at goes_on
  split at goes_on
  · cases goes_on
  · cases goes_on
  · cases goes_on
    simp only [List.length_drop, List.length_cons]
    omega

end Connection

namespace Server

variable {σ : Type} {s : Server σ} {i : Nat}

/-! ## Tasks in their places -/

/-- A server with another task in a place. -/
def withTask (s : Server σ) (i : Nat) (t : Task σ) : Server σ :=
  { s with tasks := s.tasks.set i t }

theorem onTask_eq_withTask
    {t : Task σ}
    (there : s.tasks[i]? = some t)
    (f : Task σ → Task σ) :
    s.onTask i f = s.withTask i (f t) := by
  simp only [withTask, onTask, List.modify_eq_set_getElem?, there]
  rfl

theorem withTask_self
    {t : Task σ}
    (there : s.tasks[i]? = some t) :
    s.withTask i t = s := by
  obtain ⟨hi, rfl⟩ := List.getElem?_eq_some_iff.mp there
  simp only [withTask, List.set_getElem_self]

@[simp] theorem withTask_withTask
    (s : Server σ) (i : Nat) (t u : Task σ) :
    (s.withTask i t).withTask i u = s.withTask i u := by
  simp only [withTask, List.set_set]

theorem task_withTask
    {t : Task σ}
    (there : s.tasks[i]? = some t)
    (u : Task σ) :
    (s.withTask i u).tasks[i]? = some u := by
  obtain ⟨hi, -⟩ := List.getElem?_eq_some_iff.mp there
  exact List.getElem?_set_self hi

theorem roll_withTask
    (s : Server σ) (i : Nat) (t : Task σ) :
    (s.withTask i t).roll =
      { s.roll with duties := s.roll.duties.set i t.duty } := by
  simp only [roll, withTask, List.map_set]

theorem service_of_mem_round
    {k : Nat} {a : ServerStep σ}
    (mem : a ∈ .read i :: List.replicate k (.write i)) :
    a.service? = some i := by
  rcases List.mem_cons.mp mem with rfl | mem
  · rfl
  · rw [List.eq_of_mem_replicate mem]
    rfl

variable [Transport σ]

/-! ## Steps of a service -/

theorem begin_step
    {t : Task σ}
    (there : s.tasks[i]? = some t)
    (phase : t.phase = .opened) :
    s.step? (.begin i) =
      some
        (s.withTask i { t with phase := .serving [] },
          [t.connection.greeting]) := by
  simp only [step?, begin?, there, phase, if_true,
    onTask_eq_withTask there]

theorem read_step
    {t : Task σ}
    (there : s.tasks[i]? = some t)
    (phase : t.phase = .serving []) :
    let o := t.connection.echoRead t.transport
    s.step? (.read i) =
      some
        (s.withTask i
            { t with transport := o.transport, phase := .next o.result },
          o.trace) := by
  simp only [step?, read?, there, phase, if_true,
    onTask_eq_withTask there]

theorem write_step
    {t : Task σ} {b : UInt8} {rest : Bytes}
    (there : s.tasks[i]? = some t)
    (phase : t.phase = .serving (b :: rest)) :
    let o := t.connection.echoWrite t.transport (b :: rest)
    s.step? (.write i) =
      some
        (s.withTask i
            { t with transport := o.transport, phase := .next o.result },
          o.trace) := by
  simp only [step?, write?, there, phase, onTask_eq_withTask there]

/-! ## Rounds of a service -/

/-- The phase after a round, after which the service goes on or does not. -/
def phaseAfter (goes_on : Bool) : TaskPhase :=
  if goes_on then .serving [] else .served

/-- Write after write a task echoes all that is left to it. -/
theorem run_writes
    {c : Connection} {u : σ} {permit : Nat} {left : Bytes}
    (there : s.tasks[i]? = some ⟨c, u, permit, .serving left⟩) :
    let o := c.echoAll u left
    ∃ k,
      s.run? (List.replicate k (.write i)) =
        some
          (s.withTask i ⟨c, o.transport, permit, phaseAfter o.result⟩,
            o.trace) := by
  induction hn : left.length using Nat.strongRecOn
    generalizing s u left with
  | ind n ih =>
      cases left with
      | nil =>
          rw [Connection.echoAll_nil]
          refine ⟨0, ?_⟩
          simp only [phaseAfter, if_true, withTask_self there]
          rfl
      | cons b rest =>
          have hstep := write_step there rfl
          rw [Connection.echoAll_cons]
          cases written : (c.echoWrite u (b :: rest)).result with
          | none =>
              simp only [written] at hstep
              exact ⟨1, run?_singleton hstep⟩
          | some more =>
              simp only [written] at hstep
              have hless := Connection.length_lt_of_echoWrite written
              obtain ⟨k, hmore⟩ :=
                ih more.length (hn ▸ hless) (task_withTask there _) rfl
              refine ⟨k + 1, ?_⟩
              rw [withTask_withTask] at hmore
              exact run?_append (run?_singleton hstep) hmore

/-- A read and the writes after it are a round of the service. -/
theorem run_round
    {c : Connection} {u : σ} {permit : Nat}
    (there : s.tasks[i]? = some ⟨c, u, permit, .serving []⟩) :
    let o := c.echoOnce u
    ∃ k,
      s.run? (.read i :: List.replicate k (.write i)) =
        some
          (s.withTask i ⟨c, o.transport, permit, phaseAfter o.result⟩,
            o.trace) := by
  have hstep := read_step there rfl
  simp only [Connection.echoOnce]
  cases taken : (c.echoRead u).result with
  | none =>
      simp only [taken] at hstep
      exact ⟨0, run?_singleton hstep⟩
  | some data =>
      simp only [taken] at hstep
      obtain ⟨k, hwrites⟩ := run_writes (task_withTask there _)
      rw [withTask_withTask] at hwrites
      exact ⟨k, run?_append (run?_singleton hstep) hwrites⟩

/-- Round after round a task echoes what is read, until the service ends. -/
theorem run_rounds
    {c : Connection} {u : σ} {permit : Nat}
    (there : s.tasks[i]? = some ⟨c, u, permit, .serving []⟩) :
    let o := c.echoLoop u
    ∃ steps : List (ServerStep σ),
      (∀ a ∈ steps, a.service? = some i) ∧
      s.run? steps =
        some (s.withTask i ⟨c, o.transport, permit, .served⟩, o.trace) := by
  fun_induction Connection.echoLoop c u generalizing s with
  | case1 u round goes_on =>
      rename_i ih
      obtain ⟨k, hround⟩ := run_round there
      rw [show (c.echoOnce u).result = true from goes_on] at hround
      obtain ⟨steps, hservice, hrest⟩ := ih (task_withTask there _)
      rw [withTask_withTask] at hrest
      refine ⟨_ ++ steps, ?_, run?_append hround hrest⟩
      intro a mem
      rcases List.mem_append.mp mem with mem | mem
      · exact service_of_mem_round mem
      · exact hservice a mem
  | case2 u round =>
      rename_i ends
      obtain ⟨k, hround⟩ := run_round there
      rw [show (c.echoOnce u).result = false from
        Bool.eq_false_iff.mpr ends] at hround
      exact ⟨_, fun a mem => service_of_mem_round mem, hround⟩

/--
**A task that is left alone does what the service of its connection does**: from
its start there are steps of it, reads and writes after the first, by which the
server comes to the end of the service.  What is seen of them is a greeting and
what the loop does over the same transport, and nothing else has changed.
-/
theorem run_service
    {c : Connection} {u : σ} {permit : Nat}
    (there : s.tasks[i]? = some ⟨c, u, permit, .opened⟩) :
    let o := c.echoLoop u
    ∃ steps : List (ServerStep σ),
      (∀ a ∈ steps, a.service? = some i) ∧
      s.run? steps =
        some
          (s.withTask i ⟨c, o.transport, permit, .served⟩,
            c.greeting :: o.trace) := by
  have hstep := begin_step there rfl
  obtain ⟨steps, hservice, hrounds⟩ := run_rounds (task_withTask there _)
  rw [withTask_withTask] at hrounds
  exact
    ⟨.begin i :: steps, List.forall_mem_cons.mpr ⟨rfl, hservice⟩,
      run?_append (run?_singleton hstep) hrounds⟩

/-- A task that serves can be brought to the end of its service. -/
theorem run_to_served
    {t : Task σ}
    (there : s.tasks[i]? = some t)
    (serves : t.phase.isServing = true) :
    ∃ steps u T,
      s.run? steps =
        some
          (s.withTask i { t with transport := u, phase := .served },
            T) := by
  obtain ⟨c, u, permit, phase⟩ := t
  cases phase with
  | opened =>
      obtain ⟨steps, -, hservice⟩ := run_service there
      exact ⟨steps, _, _, hservice⟩
  | serving left =>
      obtain ⟨k, hwrites⟩ := run_writes there
      cases goes_on : (c.echoAll u left).result with
      | false =>
          simp only [goes_on, phaseAfter] at hwrites
          exact ⟨_, _, _, hwrites⟩
      | true =>
          simp only [goes_on, phaseAfter, if_true] at hwrites
          obtain ⟨steps, -, hrounds⟩ :=
            run_rounds (task_withTask there _)
          rw [withTask_withTask] at hrounds
          exact ⟨_, _, _, run?_append hwrites hrounds⟩
  | _ => cases serves

end Server

end StreamServer
