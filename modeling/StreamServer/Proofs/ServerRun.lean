import StreamServer.Proofs.Roster

/-!
# Runs of a server

What is kept in every run of a server, whatever the order of its steps: the
roster, the register, the permits, what the tasks have done, how far the accept
loop has come, and which connections have been interrupted.  `Roll.Kept.keep` is
what one step preserves, `Server.kept_run` what a run does.
-/

namespace StreamServer

/-- Only acts of a parting shut a handle down. -/
theorem shutdowns_filter_isParting
    (h : Handle) (T : Trace) :
    CallLog.shutdowns h (Trace.calls (T.filter Act.isParting)) =
      CallLog.shutdowns h T.calls := by
  induction T with
  | nil => rfl
  | cons a rest ih =>
      have hcons : ∀ (b : Act) (U : Trace),
          CallLog.shutdowns h (Trace.calls (b :: U)) =
            CallLog.shutdowns h (Trace.calls [b]) +
              CallLog.shutdowns h U.calls := by
        intro b U
        rw [← List.singleton_append, Trace.calls_append,
          CallLog.shutdowns, List.countP_append]
        rfl
      have hquiet : a.isParting = false →
          CallLog.shutdowns h (Trace.calls [a]) = 0 := by
        intro quiet
        cases a with
        | call on k =>
            cases k with
            | shutdown answer => cases quiet
            | _ => simp [CallLog.shutdowns, Trace.calls, Call.isShutdown]
        | _ => rfl
      rw [List.filter_cons]
      cases parting : a.isParting with
      | true => rw [if_pos rfl, hcons, ih, hcons a rest]
      | false =>
          rw [if_neg (by simp), ih, hcons a rest, hquiet parting,
            Nat.zero_add]

namespace Roll

variable {σ : Type} {r r' : Roll}

/-! ## Interrupts -/

/-- The connections that have been interrupted are those whose second handle has
been shut down, each once; before the pass there is none. -/
structure Interrupts
    (interrupted : List Nat) (phase : ServerPhase)
    (parts : Trace) : Prop where
  once : interrupted.Nodup
  told : ∀ i,
    CallLog.shutdowns ⟨i, 1⟩ parts.calls = interrupted.count i
  none_before : ∀ attempt,
    phase = .accepting attempt → interrupted = []

namespace Interrupts

variable {interrupted : List Nat} {phase phase' : ServerPhase}
  {parts T : Trace}

theorem start :
    Interrupts [] (.accepting none) [] :=
  ⟨List.nodup_nil, fun _ => rfl, fun _ _ => rfl⟩

/-- Acts that shut no second handle down. -/
theorem quiet
    (interrupts : Interrupts interrupted phase parts)
    (unshut : ∀ i, CallLog.shutdowns ⟨i, 1⟩ T.calls = 0)
    (before : ∀ attempt, phase' = .accepting attempt →
      ∃ attempt', phase = .accepting attempt') :
    Interrupts interrupted phase' (parts ++ T) := by
  refine ⟨interrupts.once, ?_, ?_⟩
  · intro i
    rw [Trace.calls_append, CallLog.shutdowns, List.countP_append]
    have hold := interrupts.told i
    have hnew := unshut i
    unfold CallLog.shutdowns at hold hnew
    rw [hold, hnew, Nat.add_zero]
  · intro attempt hphase
    obtain ⟨attempt', hbefore⟩ := before attempt hphase
    exact interrupts.none_before attempt' hbefore

theorem interrupt
    (interrupts : Interrupts interrupted phase parts)
    (pass : phase = .interrupting)
    {k : Nat}
    (first : k ∉ interrupted)
    (answer : Except Fault Unit) :
    Interrupts (interrupted ++ [k]) phase
      (parts ++ [.call ⟨k, 1⟩ (.shutdown answer)]) := by
  refine ⟨?_, ?_, ?_⟩
  · rw [List.nodup_append]
    refine ⟨interrupts.once, by simp, ?_⟩
    intro i hi j hj
    obtain rfl := List.mem_singleton.mp hj
    rintro rfl
    exact first hi
  · intro i
    rw [Trace.calls_append, CallLog.shutdowns, List.countP_append]
    have hold := interrupts.told i
    unfold CallLog.shutdowns at hold
    rw [hold, List.count_append]
    by_cases hik : k = i <;>
      simp [hik, Trace.calls, Call.isShutdown]
  · rw [pass]
    intro attempt hphase
    cases hphase

/-- They are kept by every step: what is shut down when a service ends is the first
handle of its connection. -/
theorem keep
    {opened new : List (Connection × Interrupter)}
    {a : ServerStep σ}
    (interrupts : Interrupts r.interrupted r.phase parts)
    (roster : Roster opened r.duties)
    (register : Register r.duties r.registry)
    (moves : r.Moves a new r' T) :
    Interrupts r'.interrupted r'.phase (parts ++ T) := by
  cases moves with
  | interrupts answer pass registered first =>
      obtain ⟨left, right, hregistry, -⟩ :=
        List.lookup_eq_some_iff.mp registered
      obtain ⟨k, d, -, -, -, hit⟩ :=
        register.of_mem (hregistry ▸ List.mem_append_right _
          (List.mem_cons_self ..))
      simp only at hit
      rw [hit] at first ⊢
      exact interrupts.interrupt pass first answer
  | @closes i d T there phase leaves =>
      obtain ⟨c, -, howns, hserves⟩ := roster.exists_opened there
      rw [phase] at hserves
      have hhandle : d.connection.handle = some ⟨i, 0⟩ :=
        (congrArg Connection.handle hserves).trans howns
      obtain ⟨answer, rfl⟩ := leaves _ hhandle
      refine interrupts.quiet ?_ fun attempt h => ⟨attempt, h⟩
      intro i
      simp [CallLog.shutdowns, Trace.calls, Call.isShutdown]
  | turnsAway peer t duplicate handedOver waits letIn back =>
      refine interrupts.quiet ?_ fun _ _ => ⟨_, waits⟩
      intro i
      simp [CallLog.shutdowns, Trace.calls, Call.isShutdown]
  | deregisters there phase registered =>
      refine interrupts.quiet ?_ fun attempt h => ⟨attempt, h⟩
      intro i
      simp [CallLog.shutdowns, Trace.calls, Call.isShutdown]
  | acquires idle taken =>
      exact interrupts.quiet (fun _ => rfl) fun _ _ => ⟨_, idle⟩
  | fails f waits back =>
      exact interrupts.quiet (fun _ => rfl) fun _ _ => ⟨_, waits⟩
  | abandons waits back =>
      exact interrupts.quiet (fun _ => rfl) fun _ _ => ⟨_, waits⟩
  | admits peer t handedOver waits =>
      exact interrupts.quiet (fun _ => rfl) fun _ _ => ⟨_, waits⟩
  | stops | stopsWaiting | passes | finishes =>
      exact interrupts.quiet (fun _ => rfl) fun _ h => by cases h
  | serves | misses | givesBack | stirs =>
      exact interrupts.quiet (fun _ => rfl) fun attempt h => ⟨attempt, h⟩

end Interrupts

/-! ## Everything together -/

/-- When the server has stopped, every task has finished. -/
def Ended (phase : ServerPhase) (duties : List Duty) : Prop :=
  phase = .stopped → ∀ d ∈ duties, d.phase = .finished

theorem Ended.keep
    {a : ServerStep σ} {new : List (Connection × Interrupter)}
    {T : Trace}
    (ended : Ended r.phase r.duties)
    (moves : r.Moves a new r' T) :
    Ended r'.phase r'.duties := by
  have hactive : ∀ {i : Nat} {d : Duty} {duties : List Duty},
      r.duties[i]? = some d → d.phase ≠ .finished →
        Ended r.phase duties := by
    intro i d duties there unfinished stopped
    exact absurd (ended stopped d (List.mem_of_getElem? there)) unfinished
  cases moves with
  | serves service there before after =>
      refine hactive there ?_
      intro hfinished
      rw [hfinished] at before
      cases before
  | deregisters there phase registered =>
      exact hactive there (by simp [phase])
  | misses there phase unregistered =>
      exact hactive there (by simp [phase])
  | closes there phase parts => exact hactive there (by simp [phase])
  | givesBack there phase back => exact hactive there (by simp [phase])
  | finishes joining all => exact fun _ => all
  | interrupts | stirs => exact ended
  | acquires | fails | abandons | admits | turnsAway | stops
  | stopsWaiting | passes => exact nofun

/-- The accept loop stops before the pass, and the pass is over before the server
waits for its tasks. -/
def Course (steps : List (ServerStep σ)) : ServerPhase → Prop
  | .accepting _ => True
  | .interrupting => ∃ before pass, steps = before ++ .stop :: pass
  | _ =>
      ∃ before pass later,
        steps = before ++ .stop :: (pass ++ .interruptedAll :: later)

theorem Course.more
    {steps : List (ServerStep σ)} {phase : ServerPhase}
    (course : Course steps phase)
    (a : ServerStep σ) :
    Course (steps ++ [a]) phase := by
  cases phase with
  | accepting attempt => exact trivial
  | interrupting =>
      obtain ⟨before, pass, rfl⟩ := course
      exact ⟨before, pass ++ [a], by simp⟩
  | joining =>
      obtain ⟨before, pass, later, rfl⟩ := course
      exact ⟨before, pass, later ++ [a], by simp⟩
  | stopped =>
      obtain ⟨before, pass, later, rfl⟩ := course
      exact ⟨before, pass, later ++ [a], by simp⟩

theorem Course.keep
    {steps : List (ServerStep σ)} {a : ServerStep σ}
    {new : List (Connection × Interrupter)} {T : Trace}
    (course : Course steps r.phase)
    (moves : r.Moves a new r' T) :
    Course (steps ++ [a]) r'.phase := by
  cases moves with
  | acquires | fails | abandons | admits | turnsAway => exact trivial
  | stops | stopsWaiting => exact ⟨steps, [], rfl⟩
  | passes pass all =>
      rw [pass] at course
      obtain ⟨before, pass, rfl⟩ := course
      exact ⟨before, pass, [], by simp⟩
  | finishes joining all =>
      rw [joining] at course
      have stopped : Course steps .stopped := course
      exact stopped.more .finish
  | serves | deregisters | misses | closes | givesBack | interrupts
  | stirs => exact course.more _

/-- What is kept of a server that was started with so many permits. -/
structure Kept
    (n : Nat) (opened : List (Connection × Interrupter))
    (steps : List (ServerStep σ)) (parts : Trace)
    (r : Roll) : Prop extends Sound n r where
  roster : Roster opened r.duties
  history : History steps r.duties
  interrupts : Interrupts r.interrupted r.phase parts
  course : Course steps r.phase
  ended : Ended r.phase r.duties

theorem Kept.keep
    {n : Nat} {opened new : List (Connection × Interrupter)}
    {steps : List (ServerStep σ)} {a : ServerStep σ} {parts T : Trace}
    (kept : Kept n opened steps parts r)
    (moves : r.Moves a new r' T) :
    Kept n (opened ++ new) (steps ++ [a]) (parts ++ T) r' where
  toSound := kept.toSound.keep moves
  roster := kept.roster.keep moves
  history := kept.history.keep moves
  interrupts := kept.interrupts.keep kept.roster kept.register moves
  course := kept.course.keep moves
  ended := kept.ended.keep moves

/-- The entries of the register are those of the connections that were opened and
not taken off. -/
theorem Kept.mem_interrupters_iff
    {n : Nat} {opened : List (Connection × Interrupter)}
    {steps : List (ServerStep σ)} {parts : Trace}
    (kept : Kept n opened steps parts r)
    (id : Nat) (it : Interrupter) :
    (id, it) ∈ interrupters r.registry ↔
      ∃ i c,
        opened[i]? = some (c, it) ∧ c.id = id ∧
        .deregister i ∉ steps := by
  rw [kept.register.entries, Duty.mem_entriesFrom]
  constructor
  · rintro ⟨i, d, hd, registered, hentry⟩
    obtain ⟨c, hopened, -⟩ := kept.roster.exists_opened hd
    have hid := kept.roster.id_of_opened hopened hd
    rw [Duty.entry, Nat.zero_add, hid, Prod.mk.injEq] at hentry
    obtain ⟨rfl, rfl⟩ := hentry
    refine ⟨i, c, hopened, rfl, ?_⟩
    rw [kept.history.deregister_mem hd, registered]
    simp
  · rintro ⟨i, c, hopened, rfl, hstill⟩
    obtain ⟨d, hd, hid⟩ := kept.roster.exists_duty hopened
    obtain ⟨-, rfl⟩ := kept.roster.made i c it hopened
    rw [kept.history.deregister_mem hd, Bool.not_eq_false] at hstill
    refine ⟨i, d, hd, hstill, ?_⟩
    rw [Duty.entry, Nat.zero_add, hid]

/-- A server that has stopped has let go of everything. -/
theorem Kept.drained
    {n : Nat} {opened : List (Connection × Interrupter)}
    {steps : List (ServerStep σ)} {parts : Trace}
    (kept : Kept n opened steps parts r)
    (stopped : r.phase = .stopped) :
    r.registry = [] ∧
    r.openDescriptors = [] ∧
    r.gate.available = n ∧
    ∀ i < opened.length,
      steps.filter (ServerStep.isPartingOf i) =
        [.deregister i, .close i, .giveBack i] := by
  have hfinished := kept.ended stopped
  have hregistry : r.registry = [] := by
    have hnone : r.duties.countP (fun d => d.phase.isRegistered) = 0 := by
      rw [List.countP_eq_zero]
      intro d hd
      rw [hfinished d hd]
      simp [TaskPhase.isRegistered]
    rw [← kept.register.length_eq] at hnone
    exact List.length_eq_zero_iff.mp hnone
  refine ⟨hregistry, ?_, ?_, ?_⟩
  · rw [openDescriptors, hregistry, List.map_nil, List.append_nil,
      List.filterMap_eq_nil_iff]
    intro d hd
    rw [kept.register.owns d hd, hfinished d hd]
    rfl
  · refine kept.permits.available_eq ?_ hfinished
    rw [stopped]
    rfl
  · intro i hi
    rw [kept.roster.length_eq] at hi
    have hd := List.getElem?_eq_getElem hi
    have hhistory := kept.history i
    simp only [hd, hfinished _ (List.mem_of_getElem? hd)] at hhistory
    exact hhistory

end Roll

namespace Server

variable {σ : Type}

/-- What is kept of a server after a run that began with nothing. -/
theorem kept_start
    {settings : ConnectionSettings} {n : Nat} {gate : Gate}
    (opens : Gate.ofCapacity? n = some gate) :
    Roll.Kept n [] ([] : List (ServerStep σ)) []
      ({ settings, gate } : Server σ).roll where
  roster := .start
  register := .start
  permits := .start opens
  history := .start
  interrupts := .start
  course := trivial
  ended := nofun

variable [Transport σ]

theorem openedIn_cons
    {s next : Server σ} {a : ServerStep σ} {T : Trace}
    (made : s.step? a = some (next, T))
    (rest : List (ServerStep σ)) :
    s.openedIn (a :: rest) = s.openedBy a ++ next.openedIn rest := by
  simp [openedIn, made]

theorem openedIn_append
    {s next : Server σ} {before : List (ServerStep σ)} {T : Trace}
    (made : s.run? before = some (next, T))
    (later : List (ServerStep σ)) :
    s.openedIn (before ++ later) =
      s.openedIn before ++ next.openedIn later := by
  induction before generalizing s T with
  | nil =>
      cases made
      rfl
  | cons a rest ih =>
      obtain ⟨first, U, V, hstep, hrest, -⟩ := run?_cons_eq_some made
      rw [List.cons_append, openedIn_cons hstep, openedIn_cons hstep,
        ih hrest, List.append_assoc]

/-- Everything is kept in every run. -/
theorem kept_run
    {n : Nat} {opened : List (Connection × Interrupter)}
    {steps more : List (ServerStep σ)} {parts T : Trace}
    {s s' : Server σ}
    (kept : Roll.Kept n opened steps parts s.roll)
    (made : s.run? more = some (s', T)) :
    Roll.Kept n (opened ++ s.openedIn more) (steps ++ more)
      (parts ++ T.filter Act.isParting) s'.roll := by
  induction more generalizing s opened steps parts T with
  | nil =>
      cases made
      simpa [openedIn] using kept
  | cons a rest ih =>
      obtain ⟨next, U, V, hstep, hrest, rfl⟩ := run?_cons_eq_some made
      have hlast := ih (kept.keep (moves_step hstep)) hrest
      simpa [openedIn_cons hstep] using hlast

/-- The register and the permits stay right in every run. -/
theorem sound_run
    {n : Nat} {steps : List (ServerStep σ)} {T : Trace}
    {s s' : Server σ}
    (sound : Roll.Sound n s.roll)
    (made : s.run? steps = some (s', T)) :
    Roll.Sound n s'.roll := by
  induction steps generalizing s T with
  | nil =>
      cases made
      exact sound
  | cons a rest ih =>
      obtain ⟨next, U, V, hstep, hrest, -⟩ := run?_cons_eq_some made
      exact ih (sound.keep (moves_step hstep)) hrest

end Server

end StreamServer
