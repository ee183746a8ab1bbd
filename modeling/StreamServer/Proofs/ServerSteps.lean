import StreamServer.Proofs.Echo
import StreamServer.Proofs.LineRun
import StreamServer.Server

/-!
# Steps of a server

What a step of a server can do, once for all.  A *duty* is what is known of a
task apart from its transport, and the *roll* of a server is what is known of it
apart from its transports: the duties, the register, the gate, and how far the
accept loop has come.  `Roll.Moves` lists what a step does to the roll, which
connection is opened in it, if one is, and which parting acts it makes.  Nothing
in these lists depends on what the transports answer, except how the opening of a
connection and a step of a service end.
-/

namespace StreamServer

namespace TaskPhase

/-- While the connection is served. -/
def isServing : TaskPhase → Bool
  | opened => true
  | serving _ => true
  | _ => false

/-- Before the connection is taken off the register. -/
def isRegistered : TaskPhase → Bool
  | opened => true
  | serving _ => true
  | served => true
  | _ => false

/-- After the connection has been closed. -/
def isClosed : TaskPhase → Bool
  | closed => true
  | finished => true
  | _ => false

def isFinished : TaskPhase → Bool
  | finished => true
  | _ => false

variable {phase : TaskPhase}

@[simp] theorem isRegistered_next
    (left : Option Bytes) :
    (next left).isRegistered = true := by
  cases left <;> rfl

theorem isRegistered_of_isServing
    (serves : phase.isServing = true) :
    phase.isRegistered = true := by
  cases phase <;> first | rfl | cases serves

theorem isClosed_of_isRegistered
    (registered : phase.isRegistered = true) :
    phase.isClosed = false := by
  cases phase <;> first | rfl | cases registered

theorem isFinished_of_isRegistered
    (registered : phase.isRegistered = true) :
    phase.isFinished = false := by
  cases phase <;> first | rfl | cases registered

end TaskPhase

/-- The task that a step is of, if it is a step in the service of its
connection. -/
def ServerStep.service? {σ : Type} : ServerStep σ → Option Nat
  | begin i => some i
  | read i => some i
  | write i => some i
  | _ => none

/-- What is known of a task apart from its transport. -/
structure Duty where
  connection : Connection
  permit : Nat
  phase : TaskPhase

/-- The number of the descriptor that a duty keeps open. -/
def Duty.pollId? (d : Duty) : Option Nat :=
  d.connection.pollId?

def Task.duty {σ : Type} (t : Task σ) : Duty :=
  ⟨t.connection, t.permit, t.phase⟩

/-- What is known of a server apart from its transports. -/
structure Roll where
  duties : List Duty
  registry : List (Nat × Registration)
  gate : Gate
  interrupted : List Nat
  phase : ServerPhase

namespace Roll

/-- The descriptors that are open: those of the connections that are not closed,
and the duplicates on the register. -/
def openDescriptors (r : Roll) : List Nat :=
  r.duties.filterMap Duty.pollId? ++
    r.registry.map fun e => e.2.descriptor

/-! ## Steps -/

variable {σ : Type}

/--
What a step does to a roll: the connection that is opened in it with its
interrupter, the roll after it, and the acts of it that belong to a parting.
-/
inductive Moves (r : Roll) :
    ServerStep σ → List (Connection × Interrupter) → Roll →
      Trace → Prop
  | acquires
      {gate : Gate}
      (idle : r.phase = .accepting none)
      (taken : r.gate.step? .acquire = some gate) :
      Moves r .acquire []
        { r with gate, phase := .accepting (some r.gate.slots.length) }
        []
  | fails
      (f : Fault) {permit : Nat} {gate : Gate}
      (waits : r.phase = .accepting (some permit))
      (back : r.gate.step? (.fail permit) = some gate) :
      Moves r (.acceptFails f) []
        { r with gate, phase := .accepting none } []
  | abandons
      {permit : Nat} {gate : Gate}
      (waits : r.phase = .accepting (some permit))
      (back : r.gate.step? (.cancel permit) = some gate) :
      Moves r .abandon [] { r with gate, phase := .accepting none } []
  | admits
      (peer : String) (t : σ) (handedOver : Except Fault Unit)
      {duplicate permit : Nat} {gate : Gate} {c : Connection}
      (waits : r.phase = .accepting (some permit))
      (fresh : c.id ∉ r.openDescriptors)
      (fresh_duplicate : duplicate ∉ r.openDescriptors)
      (apart : duplicate ≠ c.id)
      (letIn : r.gate.step? (.letIn permit) = some gate)
      (owns : c.handle = some ⟨r.duties.length, 0⟩) :
      Moves r (.accept peer t duplicate handedOver)
        [(c, ⟨⟨r.duties.length, 1⟩, c.id⟩)]
        { r with
          duties := r.duties ++ [⟨c, permit, .opened⟩]
          registry :=
            r.registry.filter (fun e => e.1 ≠ c.id) ++
              [(c.id, ⟨⟨⟨r.duties.length, 1⟩, c.id⟩, duplicate⟩)]
          gate
          phase := .accepting none }
        []
  | turnsAway
      (peer : String) (t : σ) (duplicate : Nat)
      (handedOver : Except Fault Unit)
      {permit : Nat} {gate gate' : Gate}
      (waits : r.phase = .accepting (some permit))
      (letIn : r.gate.step? (.letIn permit) = some gate)
      (back : gate.step? (.giveBack permit) = some gate') :
      Moves r (.accept peer t duplicate handedOver) []
        { r with gate := gate', phase := .accepting none }
        [.call ⟨r.duties.length, 0⟩ .release, .returnPermit]
  | serves
      {a : ServerStep σ} {i : Nat} {d : Duty} {phase : TaskPhase}
      (service : a.service? = some i)
      (there : r.duties[i]? = some d)
      (before : d.phase.isServing = true)
      (after : phase.isRegistered = true) :
      Moves r a []
        { r with duties := r.duties.set i { d with phase } }
        []
  | deregisters
      {i : Nat} {d : Duty} {e : Registration}
      (there : r.duties[i]? = some d)
      (phase : d.phase = .served)
      (registered : r.registry.lookup d.connection.id = some e) :
      Moves r (.deregister i) []
        { r with
          duties := r.duties.set i { d with phase := .deregistered }
          registry := r.registry.filter fun e => e.1 ≠ d.connection.id }
        [.deregister d.connection.id,
          .call e.interrupter.handle .release]
  | misses
      {i : Nat} {d : Duty}
      (there : r.duties[i]? = some d)
      (phase : d.phase = .served)
      (unregistered : r.registry.lookup d.connection.id = none) :
      Moves r (.deregister i) []
        { r with
          duties := r.duties.set i { d with phase := .deregistered } }
        [.deregister d.connection.id]
  | closes
      {i : Nat} {d : Duty} {T : Trace}
      (there : r.duties[i]? = some d)
      (phase : d.phase = .deregistered)
      (parts : ∀ h, d.connection.handle = some h →
        ∃ answer, T =
          [.call h (.shutdown answer), .call h .release,
            .emit (.closed d.connection.id)]) :
      Moves r (.close i) []
        { r with
          duties :=
            r.duties.set i
              { d with
                connection := d.connection.ended
                phase := .closed } }
        T
  | givesBack
      {i : Nat} {d : Duty} {gate : Gate}
      (there : r.duties[i]? = some d)
      (phase : d.phase = .closed)
      (back : r.gate.step? (.giveBack d.permit) = some gate) :
      Moves r (.giveBack i) []
        { r with
          duties := r.duties.set i { d with phase := .finished }
          gate }
        [.returnPermit]
  | stops
      (idle : r.phase = .accepting none) :
      Moves r .stop [] { r with phase := .interrupting } []
  | stopsWaiting
      {permit : Nat} {gate : Gate}
      (waits : r.phase = .accepting (some permit))
      (back : r.gate.step? (.cancel permit) = some gate) :
      Moves r .stop [] { r with gate, phase := .interrupting } []
  | interrupts
      {id : Nat} {e : Registration} (answer : Except Fault Unit)
      (pass : r.phase = .interrupting)
      (registered : r.registry.lookup id = some e)
      (first : e.interrupter.handle.line ∉ r.interrupted) :
      Moves r (.interrupt id) []
        { r with
          interrupted :=
            r.interrupted ++ [e.interrupter.handle.line] }
        [.call e.interrupter.handle (.shutdown answer)]
  | passes
      (pass : r.phase = .interrupting)
      (all : ∀ e ∈ r.registry,
        e.2.interrupter.handle.line ∈ r.interrupted) :
      Moves r .interruptedAll [] { r with phase := .joining } []
  | finishes
      (joining : r.phase = .joining)
      (all : ∀ d ∈ r.duties, d.phase = .finished) :
      Moves r .finish [] { r with phase := .stopped } []
  | stirs
      (i : Nat) (u : σ) :
      Moves r (.stir i u) [] r []

end Roll

namespace Server

variable {σ : Type}

/-- The roll of a server. -/
def roll (s : Server σ) : Roll where
  duties := s.tasks.map Task.duty
  registry := s.registry
  gate := s.gate
  interrupted := s.interrupted
  phase := s.phase

theorem duty_of_task
    {s : Server σ} {i : Nat} {t : Task σ}
    (there : s.tasks[i]? = some t) :
    s.roll.duties[i]? = some t.duty := by
  simp [roll, there]

theorem task_of_duty
    {s : Server σ} {i : Nat} {d : Duty}
    (there : s.roll.duties[i]? = some d) :
    ∃ t, s.tasks[i]? = some t ∧ t.duty = d := by
  simpa [roll] using there

/-- Something done to a task changes its duty and nothing else. -/
theorem roll_onTask
    {s : Server σ} {i : Nat} {t : Task σ}
    (there : s.tasks[i]? = some t)
    (f : Task σ → Task σ) :
    (s.onTask i f).roll =
      { s.roll with duties := s.roll.duties.set i (f t).duty } := by
  simp only [roll, onTask, Roll.mk.injEq, and_self, and_true]
  rw [List.modify_eq_set_getElem?, there, ← List.map_set]
  rfl

/-- What is done to transports changes nothing. -/
@[simp] theorem roll_onTransport
    (s : Server σ) (i : Nat) (f : σ → σ) :
    (s.onTransport i f).roll = s.roll := by
  simp only [roll, onTransport, onTask, Roll.mk.injEq, and_self, and_true]
  refine List.ext_getElem? ?_
  intro j
  simp only [List.getElem?_map, List.getElem?_modify]
  cases s.tasks[j]? with
  | none => rfl
  | some t =>
      by_cases hij : i = j
      · simp [hij, Task.duty]
      · simp [hij]

theorem openDescriptors_eq
    (s : Server σ) :
    s.openDescriptors = s.roll.openDescriptors := by
  unfold openDescriptors Roll.openDescriptors roll
  rw [List.filterMap_map]
  rfl

theorem moves_begin
    {s s' : Server σ} {i : Nat} {T : Trace}
    (made : s.begin? i = some (s', T)) :
    s.roll.Moves (.begin i : ServerStep σ) [] s'.roll
      (T.filter Act.isParting) := by
  unfold begin? at made
  split at made
  case h_2 => cases made
  case h_1 t there =>
    split at made
    case isFalse => cases made
    case isTrue phase =>
      cases made
      rw [roll_onTask there]
      refine .serves rfl (duty_of_task there) ?_ rfl
      simp only [Task.duty, phase, TaskPhase.isServing]

theorem moves_giveBack
    {s s' : Server σ} {i : Nat} {T : Trace}
    (made : s.giveBack? i = some (s', T)) :
    s.roll.Moves (.giveBack i : ServerStep σ) [] s'.roll
      (T.filter Act.isParting) := by
  unfold giveBack? at made
  split at made
  case h_2 => cases made
  case h_1 t there =>
    split at made
    case isFalse => cases made
    case isTrue phase =>
      obtain ⟨gate, back, made⟩ := Option.map_eq_some_iff.mp made
      cases made
      rw [roll_onTask (s := { s with gate }) there]
      exact .givesBack (duty_of_task there) phase back

theorem moves_stop
    {s s' : Server σ} {T : Trace}
    (made : s.stop? = some (s', T)) :
    s.roll.Moves (.stop : ServerStep σ) [] s'.roll
      (T.filter Act.isParting) := by
  unfold stop? at made
  split at made
  · next idle =>
      cases made
      exact .stops idle
  · next permit waits =>
      obtain ⟨gate, back, made⟩ := Option.map_eq_some_iff.mp made
      cases made
      exact .stopsWaiting waits back
  · cases made

variable [Transport σ]

/-! ## Opening -/

/-- A connection is opened with an interrupter, which has the second handle of
its line; or it is not opened, and then the handle it would have had is given
back, and that is all that is done for its parting. -/
theorem openConnection_cases
    (number : Nat) (settings : ConnectionSettings) (t : σ)
    (handedOver : Except Fault Unit) :
    (∃ c r,
      Connection.MadeOf c ⟨number, 0⟩ settings t ∧
      openConnection number settings t handedOver =
        ⟨.ok (c, ⟨⟨number, 1⟩, c.id⟩), (Transport.duplicate t).2,
          [.call ⟨number, 0⟩ (.peer (.ok c.origin)), .log r,
            .call ⟨number, 0⟩ (.duplicate (.ok ()))]⟩) ∨
    (∃ text u T,
      T.filter Act.isParting = [.call ⟨number, 0⟩ .release] ∧
      openConnection number settings t handedOver =
        ⟨.error text, u, T⟩) := by
  unfold openConnection
  cases handedOver with
  | error f => exact Or.inr ⟨_, _, _, rfl, rfl⟩
  | ok =>
      rcases Connection.adopt_cases ⟨number, 0⟩ settings t with
        ⟨c, r, hmade, hadopt⟩ | ⟨f, -, hadopt⟩
      · simp only [hadopt, Connection.interrupter, hmade.owns,
          Outcome.after]
        cases hdup : (Transport.duplicate t).1 with
        | ok u => exact Or.inl ⟨c, r, hmade, rfl⟩
        | error f =>
            simp only [Except.map, Connection.drop, hmade.owns]
            exact Or.inr ⟨_, _, _, by rfl, rfl⟩
      · simp only [hadopt]
        exact Or.inr ⟨_, _, _, rfl, rfl⟩

/-- The connection that a step opens, with its interrupter, if it opens one. -/
def openedBy (s : Server σ) :
    ServerStep σ → List (Connection × Interrupter)
  | .accept _ t _ handedOver =>
      match
        (openConnection s.tasks.length s.settings t handedOver).result
      with
      | .ok p => [p]
      | .error _ => []
  | _ => []

/-- The connections that are opened in a run, in order. -/
def openedIn (s : Server σ) :
    List (ServerStep σ) → List (Connection × Interrupter)
  | [] => []
  | a :: rest =>
      match s.step? a with
      | some (next, _) => s.openedBy a ++ next.openedIn rest
      | none => []

/-! ## Steps -/

theorem moves_accept
    {s s' : Server σ} {peer : String} {t : σ} {duplicate : Nat}
    {handedOver : Except Fault Unit} {T : Trace}
    (made : s.accept? peer t duplicate handedOver = some (s', T)) :
    s.roll.Moves (.accept peer t duplicate handedOver)
      (s.openedBy (.accept peer t duplicate handedOver)) s'.roll
      (T.filter Act.isParting) := by
  have hlength : s.tasks.length = s.roll.duties.length := by
    simp [roll]
  unfold accept? at made
  split at made
  case h_2 => cases made
  case h_1 permit waits =>
    simp only [openDescriptors_eq] at made
    split at made
    · cases made
    · next hfresh =>
        simp only [not_or] at hfresh
        obtain ⟨hid, hduplicate, hapart⟩ := hfresh
        obtain ⟨gate, hletIn, made⟩ := Option.bind_eq_some_iff.mp made
        simp only [openedBy]
        rcases openConnection_cases s.tasks.length s.settings t
            handedOver with
          ⟨c, r, hmade, hopen⟩ | ⟨text, u, T', hparts, hopen⟩
        · simp only [hopen] at made ⊢
          cases made
          have hc := hmade.id_eq
          have hroll :=
            Roll.Moves.admits peer t handedOver waits (hc ▸ hid)
              hduplicate (hc ▸ hapart) hletIn (hlength ▸ hmade.owns)
          rw [← hlength] at hroll
          simpa [roll, enrolled, Task.duty, Act.isParting] using hroll
        · simp only [hopen] at made ⊢
          obtain ⟨gate', hback, made⟩ := Option.map_eq_some_iff.mp made
          cases made
          have hroll :=
            Roll.Moves.turnsAway (r := s.roll) peer t duplicate
              handedOver waits hletIn hback
          rw [← hlength] at hroll
          simpa [roll, List.filter_cons, hparts, Act.isParting,
            Connection.note] using hroll

theorem moves_read
    {s s' : Server σ} {i : Nat} {T : Trace}
    (made : s.read? i = some (s', T)) :
    s.roll.Moves (.read i : ServerStep σ) [] s'.roll
      (T.filter Act.isParting) := by
  unfold read? at made
  split at made
  case h_2 => cases made
  case h_1 t there =>
    split at made
    case isFalse => cases made
    case isTrue phase =>
      cases made
      rw [roll_onTask there, Connection.filter_isParting_echoRead]
      refine .serves rfl (duty_of_task there) ?_
        (TaskPhase.isRegistered_next _)
      simp only [Task.duty, phase, TaskPhase.isServing]

theorem moves_write
    {s s' : Server σ} {i : Nat} {T : Trace}
    (made : s.write? i = some (s', T)) :
    s.roll.Moves (.write i : ServerStep σ) [] s'.roll
      (T.filter Act.isParting) := by
  unfold write? at made
  split at made
  case h_2 => cases made
  case h_1 t there =>
    split at made
    case h_2 => cases made
    case h_1 b rest phase =>
      cases made
      rw [roll_onTask there, Connection.filter_isParting_echoWrite]
      refine .serves rfl (duty_of_task there) ?_
        (TaskPhase.isRegistered_next _)
      simp only [Task.duty, phase, TaskPhase.isServing]

theorem moves_deregister
    {s s' : Server σ} {i : Nat} {T : Trace}
    (made : s.deregister? i = some (s', T)) :
    s.roll.Moves (.deregister i : ServerStep σ) [] s'.roll
      (T.filter Act.isParting) := by
  simp only [deregister?] at made
  split at made
  case h_2 => cases made
  case h_1 t there =>
    split at made
    case isFalse => cases made
    case isTrue phase =>
      split at made
      · next r registered =>
          cases made
          have hroll : ∀ (next : Server σ) registry,
              ({ next with registry } : Server σ).roll =
                { next.roll with registry } :=
            fun _ _ => rfl
          rw [hroll (onTransport _ _ _), roll_onTransport,
            roll_onTask there]
          exact .deregisters (duty_of_task there) phase registered
      · next unregistered =>
          cases made
          rw [roll_onTask there]
          exact .misses (duty_of_task there) phase unregistered

theorem moves_close
    {s s' : Server σ} {i : Nat} {T : Trace}
    (made : s.close? i = some (s', T)) :
    s.roll.Moves (.close i : ServerStep σ) [] s'.roll
      (T.filter Act.isParting) := by
  unfold close? at made
  split at made
  case h_2 => cases made
  case h_1 t there =>
    split at made
    case isFalse => cases made
    case isTrue phase =>
      cases made
      rw [roll_onTask there]
      refine .closes (duty_of_task there) phase ?_
      intro h owns
      exact (Connection.leave_parts owns t.transport).1

theorem moves_interrupt
    {s s' : Server σ} {id : Nat} {T : Trace}
    (made : s.interrupt? id = some (s', T)) :
    s.roll.Moves (.interrupt id : ServerStep σ) [] s'.roll
      (T.filter Act.isParting) := by
  unfold interrupt? at made
  split at made
  case h_2 => cases made
  case h_1 r pass registered =>
    simp only at made
    split at made
    case h_2 => cases made
    case h_1 t there =>
      split at made
      case isTrue => cases made
      case isFalse first =>
        cases made
        have hmoves := fun answer =>
          Roll.Moves.interrupts (σ := σ) (r := s.roll) answer pass
            registered first
        rw [roll_onTransport]
        simp only [Interrupter.interrupt]
        cases (Transport.shutdown t.transport).1 with
        | ok _ => exact hmoves (.ok ())
        | error f => exact hmoves (.error f)

/-- Every step of a server is one of these. -/
theorem moves_step
    {s s' : Server σ} {a : ServerStep σ} {T : Trace}
    (made : s.step? a = some (s', T)) :
    s.roll.Moves a (s.openedBy a) s'.roll
      (T.filter Act.isParting) := by
  cases a with
  | acquire =>
      simp only [step?, acquire?] at made
      split at made
      case h_2 => cases made
      case h_1 idle =>
        obtain ⟨gate, taken, made⟩ := Option.map_eq_some_iff.mp made
        cases made
        exact .acquires idle taken
  | acceptFails f =>
      simp only [step?, acceptFails?] at made
      split at made
      case h_2 => cases made
      case h_1 permit waits =>
        obtain ⟨gate, back, made⟩ := Option.map_eq_some_iff.mp made
        cases made
        exact .fails f waits back
  | abandon =>
      simp only [step?, abandon?] at made
      split at made
      case h_2 => cases made
      case h_1 permit waits =>
        obtain ⟨gate, back, made⟩ := Option.map_eq_some_iff.mp made
        cases made
        exact .abandons waits back
  | accept peer t duplicate handedOver => exact moves_accept made
  | begin i => exact moves_begin made
  | read i => exact moves_read made
  | write i => exact moves_write made
  | deregister i => exact moves_deregister made
  | close i => exact moves_close made
  | giveBack i => exact moves_giveBack made
  | stop => exact moves_stop made
  | interrupt id => exact moves_interrupt made
  | interruptedAll =>
      simp only [step?, interruptedAll?] at made
      split at made
      case isFalse => cases made
      case isTrue h =>
        obtain ⟨pass, all⟩ := h
        cases made
        refine .passes pass ?_
        intro e he
        simpa [roll] using List.all_eq_true.mp all e he
  | finish =>
      simp only [step?, finish?] at made
      split at made
      case isFalse => cases made
      case isTrue h =>
        obtain ⟨joining, all⟩ := h
        cases made
        refine .finishes joining ?_
        intro d hd
        obtain ⟨t, ht, rfl⟩ := List.mem_map.mp hd
        simpa [Task.duty] using List.all_eq_true.mp all t ht
  | stir i u =>
      simp only [step?, stir?] at made
      split at made
      case h_2 => cases made
      case h_1 t there =>
        split at made
        case isFalse => cases made
        case isTrue =>
          cases made
          rw [roll_onTransport]
          exact .stirs i u

/-! ## Steps that can be made -/

theorem deregister_step
    {s : Server σ} {i : Nat} {t : Task σ} {r : Registration}
    (there : s.tasks[i]? = some t)
    (phase : t.phase = .served)
    (registered : s.registry.lookup t.connection.id = some r) :
    s.step? (.deregister i) =
      some
        ({ (s.onTask i fun t =>
              { t with phase := .deregistered }).onTransport
              r.interrupter.handle.line Transport.release with
            registry :=
              s.registry.filter fun e => e.1 ≠ t.connection.id },
          [.deregister t.connection.id,
            .call r.interrupter.handle .release]) := by
  have hfound : (s.onTask i fun t =>
      { t with phase := .deregistered }).registration?
        t.connection.id = some r :=
    registered
  simp only [step?, deregister?, there, phase, if_true, hfound]
  rfl

theorem close_step
    {s : Server σ} {i : Nat} {t : Task σ}
    (there : s.tasks[i]? = some t)
    (phase : t.phase = .deregistered) :
    s.step? (.close i) =
      some
        (s.onTask i fun t' =>
            { t' with
              connection := t'.connection.ended
              transport := (t.connection.leave t.transport).transport
              phase := .closed },
          (t.connection.leave t.transport).trace) := by
  simp only [step?, close?, there, phase, if_true]

theorem giveBack_step
    {s : Server σ} {i : Nat} {t : Task σ}
    (there : s.tasks[i]? = some t)
    (phase : t.phase = .closed)
    (holds : s.gate.slots[t.permit]? = some .held) :
    s.step? (.giveBack i) =
      some
        (({ s with gate := s.gate.back t.permit } :
            Server σ).onTask i fun t => { t with phase := .finished },
          [.returnPermit]) := by
  simp only [step?, giveBack?, there, phase, if_true, Gate.step?,
    if_pos holds, Option.map_some]

/-! ## Runs -/

theorem run?_cons
    (s : Server σ) (a : ServerStep σ) (rest : List (ServerStep σ)) :
    s.run? (a :: rest) =
      (s.step? a).bind fun first =>
        (first.1.run? rest).map fun more =>
          (more.1, first.2 ++ more.2) := by
  rfl

/-- A run is a step and a run. -/
theorem run?_cons_eq_some
    {s s' : Server σ} {a : ServerStep σ}
    {rest : List (ServerStep σ)} {T : Trace}
    (made : s.run? (a :: rest) = some (s', T)) :
    ∃ next U V,
      s.step? a = some (next, U) ∧
      next.run? rest = some (s', V) ∧
      T = U ++ V := by
  rw [run?_cons] at made
  obtain ⟨⟨next, U⟩, hstep, made⟩ := Option.bind_eq_some_iff.mp made
  obtain ⟨⟨last, V⟩, hrest, made⟩ := Option.map_eq_some_iff.mp made
  cases made
  exact ⟨next, U, V, hstep, hrest, rfl⟩

theorem run?_singleton
    {s next : Server σ} {a : ServerStep σ} {T : Trace}
    (made : s.step? a = some (next, T)) :
    s.run? [a] = some (next, T) := by
  simp only [run?, made, Option.bind_some, Option.map_some,
    List.append_nil]

/-- Two runs, one after the other. -/
theorem run?_append
    {s next last : Server σ} {before later : List (ServerStep σ)}
    {U V : Trace}
    (first : s.run? before = some (next, U))
    (second : next.run? later = some (last, V)) :
    s.run? (before ++ later) = some (last, U ++ V) := by
  induction before generalizing s U with
  | nil =>
      cases first
      exact second
  | cons a rest ih =>
      obtain ⟨mid, W, X, hstep, hrest, rfl⟩ := run?_cons_eq_some first
      rw [List.cons_append, run?_cons, hstep, Option.bind_some,
        ih hrest, List.append_assoc]
      rfl

theorem run?_append_eq_some
    {s s' : Server σ} {before later : List (ServerStep σ)} {T : Trace}
    (made : s.run? (before ++ later) = some (s', T)) :
    ∃ next U V,
      s.run? before = some (next, U) ∧
      next.run? later = some (s', V) ∧
      T = U ++ V := by
  induction before generalizing s T with
  | nil => exact ⟨s, [], T, rfl, made, rfl⟩
  | cons a rest ih =>
      obtain ⟨first, U, V, hstep, hrest, rfl⟩ := run?_cons_eq_some made
      obtain ⟨next, V', W, hbefore, hlater, rfl⟩ := ih hrest
      refine ⟨next, U ++ V', W, ?_, hlater, (List.append_assoc ..).symm⟩
      rw [run?_cons, hstep, Option.bind_some, hbefore]
      rfl

end Server

end StreamServer
