import StreamServer.Proofs.Handles
import StreamServer.Proofs.Permits

/-!
# The connections that were opened

Connections are named by the places of their tasks, in the order in which they
were opened.  A task serves the connection that was opened for it and no other,
and what it has done to part from it can be read off the steps that were made:
it left the register, closed the connection and gave its permit back, in this
order and each at most once.

In the pass over the register each connection is interrupted at most once, and
the second handle of its line is shut down then and at no other time.
-/

namespace StreamServer

namespace ServerStep

variable {σ : Type}

/-- Whether a step belongs to the parting of a task from its connection. -/
def isPartingOf (i : Nat) : ServerStep σ → Bool
  | deregister j => j == i
  | close j => j == i
  | giveBack j => j == i
  | _ => false

theorem isPartingOf_of_service
    {a : ServerStep σ} {i : Nat}
    (service : a.service? = some i)
    (j : Nat) :
    a.isPartingOf j = false := by
  cases a <;> first | rfl | cases service

theorem isPartingOf_of_ne
    {a : ServerStep σ} {i j : Nat}
    (parts : a.isPartingOf i = true)
    (apart : j ≠ i) :
    a.isPartingOf j = false := by
  cases a with
  | deregister k | close k | giveBack k =>
      obtain rfl := beq_iff_eq.mp parts
      exact beq_false_of_ne apart.symm
  | _ => rfl

end ServerStep

namespace TaskPhase

variable {σ : Type}

/-- The steps that a task has made to part from its connection. -/
def partingSteps (i : Nat) : TaskPhase → List (ServerStep σ)
  | opened => []
  | serving _ => []
  | served => []
  | deregistered => [.deregister i]
  | closed => [.deregister i, .close i]
  | finished => [.deregister i, .close i, .giveBack i]

theorem partingSteps_of_isRegistered
    (i : Nat) {phase : TaskPhase}
    (registered : phase.isRegistered = true) :
    phase.partingSteps i = ([] : List (ServerStep σ)) := by
  cases phase <;> first | rfl | cases registered

theorem deregister_mem_partingSteps
    (i : Nat) (phase : TaskPhase) :
    (.deregister i : ServerStep σ) ∈ phase.partingSteps i ↔
      phase.isRegistered = false := by
  cases phase <;> simp [partingSteps, isRegistered]

end TaskPhase

namespace Roll

variable {σ : Type} {r r' : Roll}

/-! ## Roster -/

/-- Every connection that was opened owns the first handle of its line, and came
with an interrupter that has the second.  The task in its place serves
it, until it has closed it. -/
structure Roster
    (opened : List (Connection × Interrupter))
    (duties : List Duty) : Prop where
  length_eq : opened.length = duties.length
  made : ∀ (i : Nat) (c : Connection) (it : Interrupter),
    opened[i]? = some (c, it) →
    c.handle = some ⟨i, 0⟩ ∧ it = ⟨⟨i, 1⟩, c.id⟩
  serves : ∀ (i : Nat) (c : Connection) (it : Interrupter) (d : Duty),
    opened[i]? = some (c, it) → duties[i]? = some d →
    d.connection = if d.phase.isClosed then c.ended else c

namespace Roster

variable {opened new : List (Connection × Interrupter)}
  {duties : List Duty}

theorem start :
    Roster [] [] :=
  ⟨rfl, by simp, by simp⟩

theorem id_of_opened
    (roster : Roster opened duties)
    {i : Nat} {d : Duty} {c : Connection} {it : Interrupter}
    (hopened : opened[i]? = some (c, it))
    (hduty : duties[i]? = some d) :
    d.connection.id = c.id := by
  rw [roster.serves i c it d hopened hduty]
  split <;> rfl

/-- Every opened connection has its duty. -/
theorem exists_duty
    (roster : Roster opened duties)
    {i : Nat} {c : Connection} {it : Interrupter}
    (there : opened[i]? = some (c, it)) :
    ∃ d, duties[i]? = some d ∧ d.connection.id = c.id := by
  obtain ⟨hi, -⟩ := List.getElem?_eq_some_iff.mp there
  obtain ⟨d, hd⟩ : ∃ d, duties[i]? = some d :=
    ⟨_, List.getElem?_eq_getElem (roster.length_eq ▸ hi)⟩
  exact ⟨d, hd, roster.id_of_opened there hd⟩

/-- Every duty has a connection that was opened for it. -/
theorem exists_opened
    (roster : Roster opened duties)
    {i : Nat} {d : Duty}
    (there : duties[i]? = some d) :
    ∃ c, opened[i]? = some (c, ⟨⟨i, 1⟩, c.id⟩) ∧
      c.handle = some ⟨i, 0⟩ ∧
      d.connection = if d.phase.isClosed then c.ended else c := by
  obtain ⟨hi, -⟩ := List.getElem?_eq_some_iff.mp there
  obtain ⟨⟨c, it⟩, hopened⟩ : ∃ p, opened[i]? = some p :=
    ⟨_, List.getElem?_eq_getElem (roster.length_eq ▸ hi)⟩
  obtain ⟨howns, rfl⟩ := roster.made i c it hopened
  exact ⟨c, hopened, howns, roster.serves i c _ d hopened there⟩

theorem advance
    (roster : Roster opened duties)
    {i : Nat} {d d' : Duty}
    (there : duties[i]? = some d)
    (serves : ∀ c,
      (d.connection = if d.phase.isClosed then c.ended else c) →
      d'.connection = if d'.phase.isClosed then c.ended else c) :
    Roster opened (duties.set i d') := by
  refine ⟨?_, roster.made, ?_⟩
  · rw [List.length_set]
    exact roster.length_eq
  · intro j c it x hopened hx
    by_cases hij : i = j
    · subst hij
      obtain ⟨hi, -⟩ := List.getElem?_eq_some_iff.mp there
      rw [List.getElem?_set_self hi, Option.some.injEq] at hx
      subst hx
      exact serves c (roster.serves i c it d hopened there)
    · rw [List.getElem?_set_ne hij] at hx
      exact roster.serves j c it x hopened hx

/-- A task that goes on with its connection, or is done with it. -/
theorem proceed
    (roster : Roster opened duties)
    {i : Nat} {d d' : Duty}
    (there : duties[i]? = some d)
    (connection_eq : d'.connection = d.connection)
    (closed_eq : d'.phase.isClosed = d.phase.isClosed) :
    Roster opened (duties.set i d') := by
  refine roster.advance there ?_
  intro c serves
  rw [connection_eq, closed_eq]
  exact serves

theorem enter
    (roster : Roster opened duties)
    {c : Connection}
    (owns : c.handle = some ⟨duties.length, 0⟩)
    (permit : Nat) :
    Roster (opened ++ [(c, ⟨⟨duties.length, 1⟩, c.id⟩)])
      (duties ++ [⟨c, permit, .opened⟩]) := by
  refine ⟨?_, ?_, ?_⟩
  · simp [roster.length_eq]
  · intro i c' it hopened
    rcases Session.getElem?_concat hopened with hold | ⟨rfl, hnew⟩
    · exact roster.made i c' it hold
    · cases hnew
      rw [roster.length_eq]
      exact ⟨owns, rfl⟩
  · intro i c' it d hopened hduty
    rcases Session.getElem?_concat hopened with hold | ⟨rfl, hnew⟩
    · rcases Session.getElem?_concat hduty with hd | ⟨rfl, -⟩
      · exact roster.serves i c' it d hold hd
      · rw [← roster.length_eq, List.getElem?_length] at hold
        cases hold
    · cases hnew
      rw [roster.length_eq, List.getElem?_concat_length] at hduty
      cases hduty
      rfl

theorem keep
    {a : ServerStep σ} {T : Trace}
    (roster : Roster opened r.duties)
    (moves : r.Moves a new r' T) :
    Roster (opened ++ new) r'.duties := by
  cases moves with
  | admits peer t handedOver waits fresh fresh_duplicate apart letIn owns =>
      exact roster.enter owns _
  | serves service there before after =>
      rw [List.append_nil]
      refine roster.proceed there rfl ?_
      rw [TaskPhase.isClosed_of_isRegistered after,
        TaskPhase.isClosed_of_isRegistered
          (TaskPhase.isRegistered_of_isServing before)]
  | deregisters there phase registered =>
      rw [List.append_nil]
      exact roster.proceed there rfl (by rw [phase]; rfl)
  | misses there phase unregistered =>
      rw [List.append_nil]
      exact roster.proceed there rfl (by rw [phase]; rfl)
  | closes there phase parts =>
      rw [List.append_nil]
      refine roster.advance there ?_
      intro c serves
      rw [phase] at serves
      exact congrArg Connection.ended serves
  | givesBack there phase back =>
      rw [List.append_nil]
      exact roster.proceed there rfl (by rw [phase]; rfl)
  | acquires | fails | abandons | turnsAway | stops | stopsWaiting
  | interrupts | passes | finishes | stirs =>
      rw [List.append_nil]
      exact roster

end Roster

/-! ## History -/

/-- What a task has done to part from its connection is what has been done. -/
def History (steps : List (ServerStep σ)) (duties : List Duty) : Prop :=
  ∀ i,
    steps.filter (ServerStep.isPartingOf i) =
      match duties[i]? with
      | some d => d.phase.partingSteps i
      | none => []

namespace History

variable {steps : List (ServerStep σ)} {duties : List Duty}
  {a : ServerStep σ}

theorem start :
    History ([] : List (ServerStep σ)) [] := by
  intro i
  rfl

/-- A step that belongs to no parting. -/
theorem quiet
    (history : History steps duties)
    (none_parts : ∀ i, a.isPartingOf i = false) :
    History (steps ++ [a]) duties := by
  intro i
  rw [List.filter_append, List.filter_cons_of_neg (by simp [none_parts i]),
    List.filter_nil, List.append_nil, history i]

theorem advance
    (history : History steps duties)
    {i : Nat} {d d' : Duty}
    (there : duties[i]? = some d)
    (others : ∀ j, j ≠ i → a.isPartingOf j = false)
    (here : d.phase.partingSteps i ++
      [a].filter (ServerStep.isPartingOf i) = d'.phase.partingSteps i) :
    History (steps ++ [a]) (duties.set i d') := by
  intro j
  by_cases hij : i = j
  · subst hij
    obtain ⟨hi, -⟩ := List.getElem?_eq_some_iff.mp there
    rw [List.filter_append, history i, there, List.getElem?_set_self hi]
    exact here
  · rw [List.getElem?_set_ne hij, ← history j, List.filter_append,
      List.filter_cons_of_neg (by simp [others j (Ne.symm hij)]),
      List.filter_nil, List.append_nil]

/-- The next step of a parting. -/
theorem part
    (history : History steps duties)
    {i : Nat} {d d' : Duty}
    (there : duties[i]? = some d)
    (parts : a.isPartingOf i = true)
    (here : d.phase.partingSteps i ++ [a] = d'.phase.partingSteps i) :
    History (steps ++ [a]) (duties.set i d') := by
  refine history.advance there ?_ ?_
  · intro j apart
    exact ServerStep.isPartingOf_of_ne parts apart
  · rw [List.filter_cons_of_pos parts, List.filter_nil]
    exact here

theorem enter
    (history : History steps duties)
    {d : Duty}
    (fresh : d.phase = .opened) :
    History steps (duties ++ [d]) := by
  intro i
  rw [history i]
  cases hd : duties[i]? with
  | some x =>
      obtain ⟨hi, -⟩ := List.getElem?_eq_some_iff.mp hd
      rw [List.getElem?_append_left hi, hd]
  | none =>
      cases hnew : (duties ++ [d])[i]? with
      | none => rfl
      | some x =>
          rcases Session.getElem?_concat hnew with hx | ⟨-, rfl⟩
          · rw [hd] at hx
            cases hx
          · simp only [fresh]
            rfl

theorem keep
    {new : List (Connection × Interrupter)} {T : Trace}
    (history : History steps r.duties)
    (moves : r.Moves a new r' T) :
    History (steps ++ [a]) r'.duties := by
  cases moves with
  | admits => exact (history.quiet fun _ => rfl).enter rfl
  | serves service there before after =>
      have none_parts := ServerStep.isPartingOf_of_service service
      refine history.advance there (fun j _ => none_parts j) ?_
      rw [TaskPhase.partingSteps_of_isRegistered _ after,
        TaskPhase.partingSteps_of_isRegistered _
          (TaskPhase.isRegistered_of_isServing before),
        List.filter_cons_of_neg (by simp [none_parts])]
      rfl
  | deregisters there phase registered =>
      exact history.part there (beq_self_eq_true _) (by rw [phase]; rfl)
  | misses there phase unregistered =>
      exact history.part there (beq_self_eq_true _) (by rw [phase]; rfl)
  | closes there phase parts =>
      exact history.part there (beq_self_eq_true _) (by rw [phase]; rfl)
  | givesBack there phase back =>
      exact history.part there (beq_self_eq_true _) (by rw [phase]; rfl)
  | acquires | fails | abandons | turnsAway | stops | stopsWaiting
  | interrupts | passes | finishes | stirs =>
      exact history.quiet fun _ => rfl

/-- A task is off the register when its step says so. -/
theorem deregister_mem
    (history : History steps duties)
    {i : Nat} {d : Duty}
    (there : duties[i]? = some d) :
    (.deregister i : ServerStep σ) ∈ steps ↔
      d.phase.isRegistered = false := by
  have hfilter := history i
  simp only [there] at hfilter
  rw [← TaskPhase.deregister_mem_partingSteps (σ := σ) i, ← hfilter,
    List.mem_filter]
  simp [ServerStep.isPartingOf]

end History

end Roll

end StreamServer
