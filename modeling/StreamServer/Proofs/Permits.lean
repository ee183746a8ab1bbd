import StreamServer.Proofs.Register

/-!
# Permits

At a gate every permit is available, held by an attempt that waits for a client,
or held by a client.  In a server the attempt is that of the accept loop, and
the clients are the duties that are not finished, each with a place of its own.
Hence no more connections are registered than the gate has permits.
-/

namespace StreamServer

/-- What a change in one place does to the number of elements of a kind. -/
theorem countP_set_add
    {α : Type} {l : List α} {i : Nat} {a : α}
    (there : l[i]? = some a)
    (p : α → Bool) (b : α) :
    (l.set i b).countP p + (if p a then 1 else 0) =
      l.countP p + (if p b then 1 else 0) := by
  obtain ⟨left, right, -, rfl, hset⟩ := exists_set_eq there
  rw [hset, List.countP_append, List.countP_append, List.countP_cons,
    List.countP_cons]
  omega

namespace Gate

variable {g g' g'' : Gate} {place : Nat}

/-- What becomes of one permit that was taken: its place tells something else,
and it may be available again. -/
structure Shifts
    (g : Gate) (place : Nat) (old new : Slot) (returned : Nat)
    (g' : Gate) : Prop where
  before : g.slots[place]? = some old
  after : g'.slots = g.slots.set place new
  available : g'.available = g.available + returned

theorem Shifts.waiting_eq
    {old new : Slot} {returned : Nat}
    (shifts : g.Shifts place old new returned g') :
    g'.waiting + (if old == .waiting then 1 else 0) =
      g.waiting + (if new == .waiting then 1 else 0) := by
  unfold waiting List.count
  rw [shifts.after]
  exact countP_set_add shifts.before _ _

theorem Shifts.held_eq
    {old new : Slot} {returned : Nat}
    (shifts : g.Shifts place old new returned g') :
    g'.held + (if old == .held then 1 else 0) =
      g.held + (if new == .held then 1 else 0) := by
  unfold held List.count
  rw [shifts.after]
  exact countP_set_add shifts.before _ _

theorem Shifts.slot_self
    {old new : Slot} {returned : Nat}
    (shifts : g.Shifts place old new returned g') :
    g'.slots[place]? = some new := by
  obtain ⟨hplace, -⟩ := List.getElem?_eq_some_iff.mp shifts.before
  rw [shifts.after, List.getElem?_set_self hplace]

theorem Shifts.slot_ne
    {old new : Slot} {returned other : Nat}
    (shifts : g.Shifts place old new returned g')
    (apart : other ≠ place) :
    g'.slots[other]? = g.slots[other]? := by
  rw [shifts.after, List.getElem?_set_ne apart.symm]

theorem Shifts.trans
    {old mid new : Slot} {m n : Nat}
    (first : g.Shifts place old mid m g')
    (next : g'.Shifts place mid new n g'') :
    g.Shifts place old new (m + n) g'' where
  before := first.before
  after := by rw [next.after, first.after, List.set_set]
  available := by rw [next.available, first.available, Nat.add_assoc]

theorem acquire_eq_some
    (taken : g.step? .acquire = some g') :
    g'.available + 1 = g.available ∧
      g'.slots = g.slots ++ [.waiting] := by
  simp only [step?] at taken
  split at taken
  · cases taken
  · cases taken
    exact ⟨by simp only; omega, rfl⟩

/-- A step that depends on what one place tells, and changes that. -/
theorem Shifts.of_ite
    {next : Gate} {old new : Slot} {returned : Nat}
    (made :
      (if g.slots[place]? = some old then some next else none) =
        some g')
    (after : next.slots = g.slots.set place new)
    (available : next.available = g.available + returned) :
    g.Shifts place old new returned g' := by
  split at made
  · next before =>
      cases made
      exact ⟨before, after, available⟩
  · cases made

theorem letIn_shifts
    (made : g.step? (.letIn place) = some g') :
    g.Shifts place .waiting .held 0 g' :=
  .of_ite made rfl rfl

theorem fail_shifts
    (made : g.step? (.fail place) = some g') :
    g.Shifts place .waiting .free 1 g' :=
  .of_ite made rfl rfl

theorem cancel_shifts
    (made : g.step? (.cancel place) = some g') :
    g.Shifts place .waiting .free 1 g' :=
  .of_ite made rfl rfl

theorem giveBack_shifts
    (made : g.step? (.giveBack place) = some g') :
    g.Shifts place .held .free 1 g' :=
  .of_ite made rfl rfl

end Gate

namespace ServerPhase

/-- The place of the permit with which the accept loop waits for a client. -/
def attempt? : ServerPhase → Option Nat
  | accepting attempt => attempt
  | _ => none

end ServerPhase

namespace Duty

/-- What has become of the permit of a duty. -/
def slot (d : Duty) : Slot :=
  if d.phase.isFinished then .free else .held

theorem slot_ne_waiting
    (d : Duty) :
    d.slot ≠ .waiting := by
  unfold slot
  split <;> simp

end Duty

namespace Roll

variable {σ : Type} {r r' : Roll}

/-- Every permit is accounted for: by the gate, by the accept loop, or by the
duty that it was given to. -/
structure Permits
    (n : Nat) (gate : Gate) (phase : ServerPhase)
    (duties : List Duty) : Prop where
  balance : gate.available + gate.waiting + gate.held = n
  held : gate.held = duties.countP fun d => !d.phase.isFinished
  waiting : gate.waiting = phase.attempt?.toList.length
  attempt :
    ∀ place ∈ phase.attempt?, gate.slots[place]? = some .waiting
  slots : ∀ d ∈ duties, gate.slots[d.permit]? = some d.slot
  apart : (duties.map Duty.permit).Nodup

namespace Permits

variable {n : Nat} {gate gate' : Gate} {phase phase' : ServerPhase}
  {duties : List Duty} {place : Nat}

theorem start
    (opens : Gate.ofCapacity? n = some gate) :
    Permits n gate (.accepting none) [] := by
  unfold Gate.ofCapacity? at opens
  split at opens
  · cases opens
    exact ⟨rfl, rfl, rfl, by simp [ServerPhase.attempt?], by simp,
      List.nodup_nil⟩
  · cases opens

/-- No duty has the place with which the accept loop waits. -/
theorem permit_ne
    (permits : Permits n gate phase duties)
    (waits : gate.slots[place]? = some .waiting)
    {d : Duty}
    (mem : d ∈ duties) :
    d.permit ≠ place := by
  rintro rfl
  have hslot := permits.slots d mem
  rw [waits, Option.some.injEq] at hslot
  exact d.slot_ne_waiting hslot.symm

/-- The phase matters only by its attempt. -/
theorem of_phase
    (permits : Permits n gate phase duties)
    (attempt_eq : phase'.attempt? = phase.attempt?) :
    Permits n gate phase' duties where
  balance := permits.balance
  held := permits.held
  waiting := attempt_eq ▸ permits.waiting
  attempt := attempt_eq ▸ permits.attempt
  slots := permits.slots
  apart := permits.apart

theorem acquire
    (permits : Permits n gate phase duties)
    (idle : phase.attempt? = none)
    (taken : gate.step? .acquire = some gate') :
    Permits n gate' (.accepting (some gate.slots.length)) duties := by
  obtain ⟨havailable, hslots⟩ := Gate.acquire_eq_some taken
  have hwaiting : gate'.waiting = gate.waiting + 1 := by
    simp [Gate.waiting, hslots]
  have hheld : gate'.held = gate.held := by
    simp [Gate.held, hslots]
  have hidle : gate.waiting = 0 := by
    rw [permits.waiting, idle]
    rfl
  refine ⟨?_, ?_, ?_, ?_, ?_, permits.apart⟩
  · have hbalance := permits.balance
    omega
  · rw [hheld]
    exact permits.held
  · rw [hwaiting, hidle]
    rfl
  · intro place hplace
    obtain rfl : gate.slots.length = place := by
      simpa [ServerPhase.attempt?] using hplace
    rw [hslots, List.getElem?_concat_length]
  · intro d hd
    have hslot := permits.slots d hd
    obtain ⟨hplace, -⟩ := List.getElem?_eq_some_iff.mp hslot
    rw [hslots, List.getElem?_append_left hplace, hslot]

/-- The permit of an attempt that comes to nothing goes back. -/
theorem withdraw
    (permits : Permits n gate phase duties)
    (waits : phase.attempt? = some place)
    (idle : phase'.attempt? = none)
    {returned : Nat}
    (shifts : gate.Shifts place .waiting .free returned gate')
    (one : returned = 1) :
    Permits n gate' phase' duties := by
  have hwaiting : gate'.waiting + 1 = gate.waiting :=
    shifts.waiting_eq
  have hheld : gate'.held = gate.held := shifts.held_eq
  have hone : gate.waiting = 1 := by
    rw [permits.waiting, waits]
    rfl
  refine ⟨?_, ?_, ?_, ?_, ?_, permits.apart⟩
  · have hbalance := permits.balance
    have havailable := shifts.available
    omega
  · rw [hheld]
    exact permits.held
  · rw [idle]
    simp only [Option.toList_none, List.length_nil]
    omega
  · simp [idle]
  · intro d hd
    rw [shifts.slot_ne (permits.permit_ne shifts.before hd)]
    exact permits.slots d hd

/-- The permit of an attempt stays with the client who comes. -/
theorem enter
    (permits : Permits n gate phase duties)
    (waits : phase.attempt? = some place)
    (letIn : gate.step? (.letIn place) = some gate')
    (c : Connection) :
    Permits n gate' (.accepting none)
      (duties ++ [⟨c, place, .opened⟩]) := by
  have shifts := Gate.letIn_shifts letIn
  have hwaiting : gate'.waiting + 1 = gate.waiting :=
    shifts.waiting_eq
  have hheld : gate'.held = gate.held + 1 := shifts.held_eq
  have hone : gate.waiting = 1 := by
    rw [permits.waiting, waits]
    rfl
  refine ⟨?_, ?_, ?_, by simp [ServerPhase.attempt?], ?_, ?_⟩
  · have hbalance := permits.balance
    have havailable := shifts.available
    omega
  · rw [hheld, permits.held, List.countP_append]
    rfl
  · simp only [ServerPhase.attempt?, Option.toList_none,
      List.length_nil]
    omega
  · intro d hd
    rcases List.mem_append.mp hd with hd | hd
    · rw [shifts.slot_ne (permits.permit_ne shifts.before hd)]
      exact permits.slots d hd
    · obtain rfl := List.mem_singleton.mp hd
      exact shifts.slot_self
  · rw [List.map_append, List.map_singleton, List.nodup_append]
    refine ⟨permits.apart, by simp, ?_⟩
    intro p hp q hq
    obtain ⟨d, hd, rfl⟩ := List.mem_map.mp hp
    obtain rfl : q = place := by simpa using hq
    exact permits.permit_ne shifts.before hd

/-- A duty that goes on without finishing keeps its permit. -/
theorem advance
    (permits : Permits n gate phase duties)
    {i : Nat} {d d' : Duty}
    (there : duties[i]? = some d)
    (permit_eq : d'.permit = d.permit)
    (unfinished : d.phase.isFinished = false)
    (unfinished' : d'.phase.isFinished = false) :
    Permits n gate phase (duties.set i d') where
  balance := permits.balance
  held := by
    have hcount :=
      countP_set_add there (fun d => !d.phase.isFinished) d'
    simp only [unfinished, unfinished'] at hcount
    rw [permits.held]
    exact (Nat.add_right_cancel hcount).symm
  waiting := permits.waiting
  attempt := permits.attempt
  slots := by
    intro x hx
    rcases List.mem_or_eq_of_mem_set hx with hx | rfl
    · exact permits.slots x hx
    · have hslot := permits.slots d (List.mem_of_getElem? there)
      rw [Duty.slot, unfinished] at hslot
      rw [permit_eq, hslot, Duty.slot, unfinished']
  apart := by
    have hsame : (duties.set i d').map Duty.permit =
        duties.map Duty.permit := by
      obtain ⟨left, right, -, hduties, hset⟩ := exists_set_eq there
      rw [hset, hduties]
      simp [permit_eq]
    rw [hsame]
    exact permits.apart

/-- A duty that finishes gives its own permit back. -/
theorem giveBack
    (permits : Permits n gate phase duties)
    {i : Nat} {d : Duty}
    (there : duties[i]? = some d)
    (unfinished : d.phase.isFinished = false)
    (back : gate.step? (.giveBack d.permit) = some gate') :
    Permits n gate' phase
      (duties.set i { d with phase := .finished }) := by
  have shifts := Gate.giveBack_shifts back
  have hwaiting : gate'.waiting = gate.waiting := shifts.waiting_eq
  have hheld : gate'.held + 1 = gate.held := shifts.held_eq
  obtain ⟨left, right, hi, hduties, hset⟩ := exists_set_eq there
  have hapart := permits.apart
  rw [hduties, List.map_append, List.map_cons, List.nodup_middle,
    List.nodup_cons, ← List.map_append] at hapart
  refine ⟨?_, ?_, ?_, ?_, ?_, ?_⟩
  · have hbalance := permits.balance
    have havailable := shifts.available
    omega
  · have hcount :=
      countP_set_add there (fun d => !d.phase.isFinished)
        { d with phase := .finished }
    have hfinished : TaskPhase.finished.isFinished = true := rfl
    simp only [unfinished, hfinished, Bool.not_false, Bool.not_true,
      if_true, Bool.false_eq_true, if_false] at hcount
    have hheld_before := permits.held
    omega
  · rw [hwaiting]
    exact permits.waiting
  · intro place hplace
    have hslot := permits.attempt place hplace
    rw [shifts.slot_ne, hslot]
    exact (permits.permit_ne hslot (List.mem_of_getElem? there)).symm
  · intro x hx
    rw [hset, List.mem_append, List.mem_cons, or_left_comm,
      ← List.mem_append] at hx
    rcases hx with rfl | hx
    · exact shifts.slot_self
    · have hne : x.permit ≠ d.permit := by
        intro heq
        exact hapart.1 (List.mem_map.mpr ⟨x, hx, heq⟩)
      rw [shifts.slot_ne hne]
      refine permits.slots x ?_
      rw [hduties, List.mem_append, List.mem_cons, or_left_comm,
        ← List.mem_append]
      exact Or.inr hx
  · rw [hset, List.map_append, List.map_cons, List.nodup_middle,
      List.nodup_cons, ← List.map_append]
    exact hapart

/-- No step loses a permit or makes one. -/
theorem keep
    {a : ServerStep σ} {new : List (Connection × Interrupter)}
    {T : Trace}
    (permits : Permits n r.gate r.phase r.duties)
    (moves : r.Moves a new r' T) :
    Permits n r'.gate r'.phase r'.duties := by
  cases moves with
  | acquires idle taken =>
      exact permits.acquire (by rw [idle]; rfl) taken
  | fails f waits back =>
      exact permits.withdraw (by rw [waits]; rfl) rfl
        (Gate.fail_shifts back) rfl
  | abandons waits back =>
      exact permits.withdraw (by rw [waits]; rfl) rfl
        (Gate.cancel_shifts back) rfl
  | admits peer t handedOver waits fresh fresh_duplicate apart letIn owns =>
      exact permits.enter (by rw [waits]; rfl) letIn _
  | turnsAway peer t duplicate handedOver waits letIn back =>
      exact permits.withdraw (by rw [waits]; rfl) rfl
        ((Gate.letIn_shifts letIn).trans (Gate.giveBack_shifts back)) rfl
  | serves service there before after =>
      exact permits.advance there rfl
        (TaskPhase.isFinished_of_isRegistered
          (TaskPhase.isRegistered_of_isServing before))
        (TaskPhase.isFinished_of_isRegistered after)
  | deregisters there phase registered =>
      exact permits.advance there rfl (by rw [phase]; rfl) rfl
  | misses there phase unregistered =>
      exact permits.advance there rfl (by rw [phase]; rfl) rfl
  | closes there phase parts =>
      exact permits.advance there rfl (by rw [phase]; rfl) rfl
  | givesBack there phase back =>
      exact permits.giveBack there (by rw [phase]; rfl) back
  | stops idle => exact permits.of_phase (by rw [idle]; rfl)
  | stopsWaiting waits back =>
      exact permits.withdraw (by rw [waits]; rfl) rfl
        (Gate.cancel_shifts back) rfl
  | passes pass all => exact permits.of_phase (by rw [pass]; rfl)
  | finishes joining all =>
      exact permits.of_phase (by rw [joining]; rfl)
  | interrupts | stirs => exact permits

/-- No more connections are registered than there are permits. -/
theorem length_registry_le
    {registry : List (Nat × Registration)}
    (permits : Permits n gate phase duties)
    (register : Register duties registry) :
    registry.length ≤ n := by
  have hle : duties.countP (fun d => d.phase.isRegistered) ≤
      duties.countP fun d => !d.phase.isFinished := by
    refine List.countP_mono_left ?_
    intro d _ registered
    cases hphase : d.phase <;> rw [hphase] at registered <;>
      first | rfl | cases registered
  have hbalance := permits.balance
  rw [register.length_eq]
  rw [← permits.held] at hle
  omega

/-- When every duty is finished and nothing waits, all permits are available. -/
theorem available_eq
    (permits : Permits n gate phase duties)
    (idle : phase.attempt? = none)
    (finished : ∀ d ∈ duties, d.phase = .finished) :
    gate.available = n := by
  have hheld : gate.held = 0 := by
    rw [permits.held, List.countP_eq_zero]
    intro d hd
    rw [finished d hd]
    simp [TaskPhase.isFinished]
  have hwaiting : gate.waiting = 0 := by
    rw [permits.waiting, idle]
    rfl
  have hbalance := permits.balance
  omega

end Permits

/-- A roll whose register and permits are right. -/
structure Sound (n : Nat) (r : Roll) : Prop where
  register : Register r.duties r.registry
  permits : Permits n r.gate r.phase r.duties

theorem Sound.keep
    {n : Nat} {a : ServerStep σ}
    {new : List (Connection × Interrupter)} {T : Trace}
    (sound : Sound n r)
    (moves : r.Moves a new r' T) :
    Sound n r' where
  register := sound.register.keep moves
  permits := sound.permits.keep moves

end Roll

end StreamServer
