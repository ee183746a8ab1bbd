import StreamServer.Proofs.ServerRun
import StreamServer.Proofs.ServiceRun

/-!
# The register and the drain

What the register of a server holds after any run, who has been interrupted, and
what is left when the server has stopped.  All that follows from what is kept in
every run, but for one thing: a server can always be brought to its end.  It can
be told to stop, every connection on the register can be interrupted, and every
task can be brought through the parts of its work: its service, which comes to
an end by its own steps, leaving the register, closing the connection and giving
the permit back.
-/

namespace StreamServer

/-- How many parts of its work a task still has before it. -/
def TaskPhase.partsLeft : TaskPhase → Nat
  | opened => 4
  | serving _ => 4
  | served => 3
  | deregistered => 2
  | closed => 1
  | finished => 0

theorem TaskPhase.partsLeft_of_isServing
    {phase : TaskPhase}
    (serves : phase.isServing = true) :
    phase.partsLeft = 4 := by
  cases phase <;> first | rfl | cases serves

namespace Roll

/-- How many parts of their work all tasks together still have before them. -/
def partsLeft (r : Roll) : Nat :=
  (r.duties.map fun d => d.phase.partsLeft).sum

/-- When one task has less before it, so have all together. -/
theorem partsLeft_lt
    {r r' : Roll} {i : Nat} {d d' : Duty}
    (there : r.duties[i]? = some d)
    (after : r'.duties = r.duties.set i d')
    (less : d'.phase.partsLeft < d.phase.partsLeft) :
    r'.partsLeft < r.partsLeft := by
  obtain ⟨left, right, -, hduties, hset⟩ := exists_set_eq there
  rw [partsLeft, partsLeft, after, hset, hduties]
  simp only [List.map_append, List.map_cons, List.sum_append,
    List.sum_cons]
  omega

end Roll

namespace Server

variable {σ : Type} {s : Server σ}

variable [Transport σ]

/-! ## Tasks -/

/-- A server of whose tasks one can be brought through the next part of its
work. -/
def CanProceed (s : Server σ) : Prop :=
  ∃ steps next T,
    s.run? steps = some (next, T) ∧
    next.phase = s.phase ∧
    next.roll.partsLeft < s.roll.partsLeft

theorem CanProceed.of_run
    {i : Nat} {t : Task σ} {d : Duty}
    {steps : List (ServerStep σ)} {next : Server σ} {T : Trace}
    (there : s.tasks[i]? = some t)
    (made : s.run? steps = some (next, T))
    (same_phase : next.phase = s.phase)
    (after : next.roll.duties = s.roll.duties.set i d)
    (less : d.phase.partsLeft < t.phase.partsLeft) :
    s.CanProceed :=
  ⟨steps, next, T, made, same_phase,
    Roll.partsLeft_lt (duty_of_task there) after less⟩

/-- A task that has not finished can be brought through the next part of its
work. -/
theorem task_run
    {n i : Nat} {t : Task σ}
    (sound : Roll.Sound n s.roll)
    (there : s.tasks[i]? = some t)
    (unfinished : t.phase ≠ .finished) :
    s.CanProceed := by
  have hduty := duty_of_task there
  have hphase : t.duty.phase = t.phase := rfl
  have hserved : t.phase.isServing = true → s.CanProceed := by
    intro serves
    obtain ⟨steps, u, T, hrun⟩ := run_to_served there serves
    refine .of_run there hrun rfl
      (congrArg Roll.duties (roll_withTask ..)) ?_
    rw [TaskPhase.partsLeft_of_isServing serves]
    exact Nat.lt_succ_self 3
  cases phase : t.phase with
  | opened => exact hserved (by rw [phase]; rfl)
  | serving left => exact hserved (by rw [phase]; rfl)
  | served =>
      obtain ⟨-, r, -, -, -, hlookup, -⟩ :=
        sound.register.own hduty (by rw [hphase, phase]; rfl)
      have hmade := deregister_step there phase hlookup
      have hafter : ((s.onTask i fun t =>
          { t with phase := .deregistered }).onTransport
            r.interrupter.handle.line Transport.release).roll.duties =
          s.roll.duties.set i { t.duty with phase := .deregistered } := by
        rw [roll_onTransport, roll_onTask there]
        rfl
      refine .of_run there (run?_singleton hmade) rfl hafter ?_
      rw [phase]
      exact Nat.lt_succ_self 2
  | deregistered =>
      have hmade := close_step there phase
      refine .of_run there (run?_singleton hmade) rfl
        (congrArg Roll.duties (roll_onTask there _)) ?_
      rw [phase]
      exact Nat.lt_succ_self 1
  | closed =>
      have hslot :=
        sound.permits.slots _ (List.mem_of_getElem? hduty)
      simp only [Duty.slot, hphase, phase] at hslot
      have hmade := giveBack_step there phase hslot
      refine .of_run there (run?_singleton hmade) rfl
        (congrArg Roll.duties
          (roll_onTask (s := { s with gate := _ }) there _)) ?_
      rw [phase]
      exact Nat.lt_succ_self 0
  | finished => exact absurd phase unfinished

/-! ## Ends -/

/-- A server that can be brought to its end. -/
def CanStop (s : Server σ) : Prop :=
  ∃ more last T, s.run? more = some (last, T) ∧ last.phase = .stopped

theorem CanStop.of_run
    {steps : List (ServerStep σ)} {next : Server σ} {T : Trace}
    (made : s.run? steps = some (next, T))
    (ends : next.CanStop) :
    s.CanStop := by
  obtain ⟨more, last, U, hmore, hstopped⟩ := ends
  exact ⟨steps ++ more, last, T ++ U, run?_append made hmore, hstopped⟩

theorem CanStop.of_step
    {a : ServerStep σ} {next : Server σ} {T : Trace}
    (made : s.step? a = some (next, T))
    (ends : next.CanStop) :
    s.CanStop :=
  .of_run (run?_singleton made) ends

/-- When the pass is over, the tasks can come to their ends, and with them the
server. -/
theorem canStop_of_joining
    {n : Nat}
    (sound : Roll.Sound n s.roll)
    (joining : s.phase = .joining) :
    s.CanStop := by
  induction hparts : s.roll.partsLeft using Nat.strongRecOn
    generalizing s with
  | ind k ih =>
      by_cases all : ∀ t ∈ s.tasks, t.phase = .finished
      · have hmade : s.step? .finish =
            some ({ s with phase := .stopped },
              [Connection.note .info "All connections drained" []]) := by
          simp only [step?, finish?]
          rw [if_pos ⟨joining, by simpa using all⟩]
        exact .of_step hmade ⟨[], _, [], rfl, rfl⟩
      · simp only [not_forall] at all
        obtain ⟨t, ht, unfinished⟩ := all
        obtain ⟨i, there⟩ := List.mem_iff_getElem?.mp ht
        obtain ⟨steps, next, T, hmade, hphase, hless⟩ :=
          task_run sound there unfinished
        exact .of_run hmade
          (ih next.roll.partsLeft (hparts ▸ hless)
            (sound_run sound hmade) (hphase.trans joining) rfl)

/-- A connection on the register that has not been interrupted can be. -/
theorem interrupt_step
    {n : Nat} {e : Nat × Registration}
    (sound : Roll.Sound n s.roll)
    (pass : s.phase = .interrupting)
    (mem : e ∈ s.registry)
    (first : e.2.interrupter.handle.line ∉ s.interrupted) :
    ∃ next T,
      s.step? (.interrupt e.1) = some (next, T) ∧
      next.phase = .interrupting ∧
      next.registry = s.registry ∧
      next.interrupted =
        s.interrupted ++ [e.2.interrupter.handle.line] := by
  obtain ⟨left, right, hregistry⟩ := List.mem_iff_append.mp mem
  have hkeys := sound.register.keys_nodup
  rw [show s.roll.registry = s.registry from rfl, hregistry] at hkeys
  have hlookup : s.registration? e.1 = some e.2 := by
    rw [registration?, hregistry]
    exact (lookup_and_filter_key hkeys).1
  obtain ⟨i, d, hd, -, -, hit⟩ := sound.register.of_mem mem
  obtain ⟨t, there, -⟩ := task_of_duty hd
  have hline : e.2.interrupter.handle.line = i := by rw [hit]
  rw [hline] at first ⊢
  simp only [step?, interrupt?, pass, hlookup, hline, there,
    if_neg first]
  exact ⟨_, _, rfl, rfl, rfl, rfl⟩

/-- In the pass, all that is still to be interrupted can be, one after the
other. -/
theorem canStop_of_interrupting
    {n : Nat}
    (pending : List (Nat × Registration))
    (sound : Roll.Sound n s.roll)
    (pass : s.phase = .interrupting)
    (listed : ∀ e ∈ pending, e ∈ s.registry)
    (rest : ∀ e ∈ s.registry,
      e ∈ pending ∨ e.2.interrupter.handle.line ∈ s.interrupted) :
    s.CanStop := by
  induction pending generalizing s with
  | nil =>
      have hmade : s.step? .interruptedAll =
          some ({ s with phase := .joining }, []) := by
        simp only [step?, interruptedAll?]
        rw [if_pos ⟨pass, by simpa using rest⟩]
      exact .of_step hmade
        (canStop_of_joining (sound.keep (moves_step hmade)) rfl)
  | cons e pending ih =>
      obtain ⟨he, hpending⟩ := List.forall_mem_cons.mp listed
      by_cases hdone : e.2.interrupter.handle.line ∈ s.interrupted
      · refine ih sound pass hpending ?_
        intro x hx
        rcases rest x hx with hin | hinterrupted
        · rcases List.mem_cons.mp hin with rfl | hin
          · exact Or.inr hdone
          · exact Or.inl hin
        · exact Or.inr hinterrupted
      · obtain ⟨next, T, hmade, hphase, hregistry, hinterrupted⟩ :=
          interrupt_step sound pass he hdone
        refine .of_step hmade
          (ih (sound.keep (moves_step hmade)) hphase ?_ ?_)
        · rw [hregistry]
          exact hpending
        · rw [hregistry, hinterrupted]
          intro x hx
          rcases rest x hx with hin | hold
          · rcases List.mem_cons.mp hin with rfl | hin
            · exact Or.inr (List.mem_append_right _
                (List.mem_singleton_self _))
            · exact Or.inl hin
          · exact Or.inr (List.mem_append_left _ hold)

/-- A server that accepts can be told to stop. -/
theorem stop_step
    {n : Nat} {attempt : Option Nat}
    (sound : Roll.Sound n s.roll)
    (accepting : s.phase = .accepting attempt) :
    ∃ next T,
      s.step? .stop = some (next, T) ∧ next.phase = .interrupting := by
  cases attempt with
  | none =>
      simp only [step?, stop?, accepting]
      exact ⟨_, _, rfl, rfl⟩
  | some place =>
      have hslot : s.gate.slots[place]? = some .waiting := by
        refine sound.permits.attempt place ?_
        rw [show s.roll.phase = s.phase from rfl, accepting]
        rfl
      simp only [step?, stop?, accepting, Gate.step?, hslot, if_true]
      exact ⟨_, _, rfl, rfl⟩

/-- A server can always be brought to its end. -/
theorem canStop
    {n : Nat}
    (sound : Roll.Sound n s.roll) :
    s.CanStop := by
  have hpass : ∀ {next : Server σ}, Roll.Sound n next.roll →
      next.phase = .interrupting → next.CanStop := by
    intro next sound pass
    exact canStop_of_interrupting next.registry sound pass
      (fun _ => id) (fun _ => Or.inl)
  cases phase : s.phase with
  | accepting attempt =>
      obtain ⟨next, T, hmade, hphase⟩ := stop_step sound phase
      exact .of_step hmade (hpass (sound.keep (moves_step hmade)) hphase)
  | interrupting => exact hpass sound phase
  | joining => exact canStop_of_joining sound phase
  | stopped => exact ⟨[], s, [], rfl, phase⟩

/-! ## All together -/

/-- The pass does not end before every connection on the register has been
interrupted. -/
theorem interrupted_of_pass
    {n : Nat} {opened : List (Connection × Interrupter)}
    {steps : List (ServerStep σ)} {next : Server σ} {parts U : Trace}
    (kept : Roll.Kept n opened steps parts s.roll)
    (made : s.step? .interruptedAll = some (next, U))
    {i : Nat}
    (hi : i < opened.length)
    (registered : .deregister i ∉ steps) :
    CallLog.shutdowns ⟨i, 1⟩ parts.calls = 1 := by
  obtain ⟨⟨c, it⟩, hopened⟩ : ∃ p, opened[i]? = some p :=
    ⟨_, List.getElem?_eq_getElem hi⟩
  obtain ⟨-, rfl⟩ := kept.roster.made i c it hopened
  have hentry :=
    (kept.mem_interrupters_iff c.id ⟨⟨i, 1⟩, c.id⟩).mpr
      ⟨i, c, hopened, rfl, registered⟩
  obtain ⟨e, he, heq⟩ := List.mem_map.mp hentry
  simp only [step?, interruptedAll?] at made
  split at made
  case isFalse => cases made
  case isTrue h =>
    have hall := List.all_eq_true.mp h.2 e he
    rw [Prod.mk.injEq] at heq
    simp only [heq.2, decide_eq_true_eq] at hall
    rw [kept.interrupts.told i]
    exact List.count_eq_one_of_mem kept.interrupts.once hall

/-- What is on the register when the server is told to stop has been interrupted
when the pass is over, unless it has been taken off. -/
theorem interrupted_in_pass
    {settings : ConnectionSettings} {n : Nat} {gate : Gate}
    {before pass later : List (ServerStep σ)} {T : Trace}
    (opens : Gate.ofCapacity? n = some gate)
    (made : ({ settings, gate } : Server σ).run?
      (before ++ .stop :: (pass ++ .interruptedAll :: later)) =
        some (s, T))
    {i : Nat}
    (hi : i <
      (({ settings, gate } : Server σ).openedIn before).length)
    (hbefore : .deregister i ∉ before)
    (hpass : .deregister i ∉ pass) :
    1 ≤ CallLog.shutdowns ⟨i, 1⟩ T.calls := by
  rw [← List.cons_append, ← List.append_assoc] at made
  obtain ⟨mid, U, V, hmid, hlater, rfl⟩ := run?_append_eq_some made
  obtain ⟨next, W, X, hstep, -, -⟩ := run?_cons_eq_some hlater
  obtain ⟨first, Y, Z, hfirst, -, -⟩ := run?_append_eq_some hmid
  have kept := kept_run (kept_start opens) hmid
  rw [List.nil_append, List.nil_append, List.nil_append] at kept
  have hmany : i < (({ settings, gate } : Server σ).openedIn
      (before ++ .stop :: pass)).length := by
    rw [openedIn_append hfirst, List.length_append]
    omega
  have hone := interrupted_of_pass kept hstep hmany
    (by simp [hbefore, hpass])
  rw [shutdowns_filter_isParting] at hone
  rw [Trace.calls_append, CallLog.shutdowns, List.countP_append]
  unfold CallLog.shutdowns at hone
  omega

/--
**The register and the drain of a server**, for any run that begins with nothing
and a gate with `n` permits, over any transports and with its steps in any order.
Connections are named by the order in which they were opened.

* No number is on the register twice, and what the register holds are the
  connections that were opened and that their tasks have not taken off: each
  under its own number, with an interrupter that has the second handle of the
  line on which the connection has the first.
* A task that takes its connection off the register takes off the entry of that
  connection and no other, whatever numbers have been used again.
* No more than `n` connections are registered.
* No connection is interrupted before the server is told to stop, and none twice.
  The server does not wait for its tasks before the pass over the register has
  come to its end, and then every connection that was registered when it was told
  to stop has been interrupted, unless its task took it off the register
  meanwhile.
* The server can always be brought to its end.  When it has stopped, nothing is
  registered or open, every permit is available, and every task has taken its
  connection off the register, closed it and given its permit back, in this order
  and once each.
-/
theorem register_and_drain
    {settings : ConnectionSettings} {n : Nat} {gate : Gate}
    {steps : List (ServerStep σ)} {T : Trace}
    (opens : Gate.ofCapacity? n = some gate)
    (made : ({ settings, gate } : Server σ).run? steps = some (s, T)) :
    let start : Server σ := { settings, gate }
    let opened := start.openedIn steps
    let interrupts := fun i => CallLog.shutdowns ⟨i, 1⟩ T.calls
    (s.registry.map Prod.fst).Nodup ∧
    (∀ id it,
      (id, it) ∈ Roll.interrupters s.registry ↔
        ∃ (i : Nat) (c : Connection),
          opened[i]? = some (c, it) ∧ c.id = id ∧
          .deregister i ∉ steps) ∧
    (∀ (i : Nat) (c : Connection) (it : Interrupter),
      opened[i]? = some (c, it) →
        c.handle = some ⟨i, 0⟩ ∧ it = ⟨⟨i, 1⟩, c.id⟩) ∧
    (∀ i next U,
      s.step? (.deregister i) = some (next, U) →
        ∃ left e right, ∃ c : Connection,
          s.registry = left ++ e :: right ∧
          next.registry = left ++ right ∧
          opened[i]? = some (c, e.2.interrupter) ∧
          e.1 = c.id) ∧
    s.registry.length ≤ n ∧
    (∀ attempt, s.phase = .accepting attempt → ∀ i, interrupts i = 0) ∧
    (∀ i, interrupts i ≤ 1) ∧
    (s.phase = .joining ∨ s.phase = .stopped →
      ∃ before pass later : List (ServerStep σ),
        steps = before ++ .stop :: (pass ++ .interruptedAll :: later)) ∧
    (∀ before pass later : List (ServerStep σ),
      steps = before ++ .stop :: (pass ++ .interruptedAll :: later) →
        ∀ i < (start.openedIn before).length,
          .deregister i ∉ before →
            interrupts i = 1 ∨ .deregister i ∈ pass) ∧
    s.CanStop ∧
    (s.phase = .stopped →
      s.registry = [] ∧
      s.openDescriptors = [] ∧
      s.gate.available = n ∧
      ∀ i < opened.length,
        steps.filter (ServerStep.isPartingOf i) =
          [.deregister i, .close i, .giveBack i]) := by
  intro start opened interrupts
  have kept : Roll.Kept n opened steps (T.filter Act.isParting) s.roll := by
    simpa using kept_run (kept_start opens) made
  have htold : ∀ i, interrupts i = s.interrupted.count i := by
    intro i
    exact
      (shutdowns_filter_isParting _ T).symm.trans
        (kept.interrupts.told i)
  have hle : ∀ i, interrupts i ≤ 1 := by
    intro i
    rw [htold]
    exact List.nodup_iff_count_le_one.mp kept.interrupts.once i
  refine
    ⟨kept.register.keys_nodup, kept.mem_interrupters_iff, ?own, ?removed,
      kept.permits.length_registry_le kept.register, ?none_before, hle,
      ?course, ?pass, canStop kept.toSound, ?drained⟩
  case own =>
    intro i c it hopened
    exact kept.roster.made i c it hopened
  case removed =>
    intro i next U hstep
    obtain ⟨left, e, right, d, hregistry, hnext, hd, hkey, hit⟩ :=
      kept.register.deregistered (moves_step hstep)
    obtain ⟨c, hopened, -⟩ := kept.roster.exists_opened hd
    have hid := kept.roster.id_of_opened hopened hd
    rw [hid] at hkey hit
    exact ⟨left, e, right, c, hregistry, hnext, hit ▸ hopened, hkey⟩
  case none_before =>
    intro attempt accepting i
    have hnone := kept.interrupts.none_before attempt accepting
    rw [htold, show s.interrupted = [] from hnone]
    rfl
  case course =>
    have hcourse := kept.course
    rw [show s.roll.phase = s.phase from rfl] at hcourse
    rintro (joining | stopped)
    · rw [joining] at hcourse
      exact hcourse
    · rw [stopped] at hcourse
      exact hcourse
  case pass =>
    rintro before pass later rfl i hi hbefore
    by_cases hpass : .deregister i ∈ pass
    · exact Or.inr hpass
    · exact Or.inl (Nat.le_antisymm (hle i)
        (interrupted_in_pass opens made hi hbefore hpass))
  case drained =>
    intro stopped
    rw [openDescriptors_eq]
    exact kept.drained stopped

/-- A client comes and goes.  The next one, whose descriptor has the same number
again, has sent something but not been answered when the server is told to stop:
it is interrupted before it is answered. -/
theorem register_and_drain_number_used_again :
    let t : Script := { descriptor := 42, peer := .ok "203.0.113.5:51000" }
    let u : Script := { t with reads := [.chunk [7, 8] none] }
    let start : Server Script := { settings := {}, gate := ⟨1, 1, []⟩ }
    let before : List (ServerStep Script) :=
      [.acquire, .accept "203.0.113.5:51000" t 43 (.ok ()), .begin 0,
        .read 0, .deregister 0, .close 0, .giveBack 0,
        .acquire, .accept "203.0.113.5:51000" u 43 (.ok ()), .begin 1,
        .read 1]
    Gate.ofCapacity? 1 = some start.gate ∧
    ∃ s T,
      start.run?
          (before ++ [.stop, .interrupt 42, .interruptedAll, .write 1]) =
        some (s, T) ∧
      s.phase = .joining ∧
      s.registry = [(42, ⟨⟨⟨1, 1⟩, 42⟩, 43⟩)] ∧
      CallLog.shutdowns ⟨0, 1⟩ T.calls ≤ 1 ∧
      CallLog.shutdowns ⟨1, 1⟩ T.calls = 1 ∧
      s.CanStop := by
  intro t u start before
  have hend :
      (start.run?
          (before ++ [.stop, .interrupt 42, .interruptedAll, .write 1])).map
          (fun p => (p.1.phase, p.1.registry)) =
        some (.joining, [(42, ⟨⟨⟨1, 1⟩, 42⟩, 43⟩)]) := by
    decide +kernel
  obtain ⟨⟨s, T⟩, hrun, hs⟩ := Option.map_eq_some_iff.mp hend
  obtain ⟨hphase, hregistry⟩ := Prod.mk.inj hs
  obtain ⟨-, -, -, -, -, -, hle, -, hpass, hends, -⟩ :=
    register_and_drain (n := 1) rfl hrun
  have hone :=
    hpass before [.interrupt 42] [.write 1] rfl 1 (by decide +kernel)
      (by simp [before])
  exact
    ⟨rfl, s, T, hrun, hphase, hregistry, hle 0,
      hone.resolve_right (by simp), hends⟩

end Server

end StreamServer
