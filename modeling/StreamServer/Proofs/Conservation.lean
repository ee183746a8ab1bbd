import Mathlib
import StreamServer.Proofs.Capacity
import StreamServer.Proofs.ServerRun

/-!
# The conservation of permits

A permit of a gate is available, with an attempt that waits for a client, or
with a client.  What one step does is said once, by `Turns`: it takes a permit
off the gate, or it changes what one place tells.  From it follow the two laws
of every run: no permit is lost or made, and what is available has changed by
what was taken and what came back.

So a listener never lets in more clients than its settings say.  An attempt that
finds no permit returns nothing and leaves everything as it was, and no permit is
taken before one comes back.
-/

namespace StreamServer

namespace GateStep

/-- Whether a step brings a permit back to the gate. -/
def returns : GateStep → Bool
  | fail _ => true
  | cancel _ => true
  | giveBack _ => true
  | _ => false

end GateStep

namespace Gate

variable {g g' : Gate} {a : GateStep} {steps : List GateStep}

/-- How many permits there are, wherever they are. -/
def total (g : Gate) : Nat :=
  g.available + g.held + g.waiting

/-- What a step does with the permits of a gate. -/
inductive Turns (g g' : Gate) : GateStep → Prop
  | acquires
      (available : g'.available + 1 = g.available)
      (slots : g'.slots = g.slots ++ [.waiting]) :
      Turns g g' .acquire
  | letsIn
      {place : Nat}
      (shifts : g.Shifts place .waiting .held 0 g') :
      Turns g g' (.letIn place)
  | withdraws
      {a : GateStep} {place : Nat}
      (ends : a = .fail place ∨ a = .cancel place)
      (shifts : g.Shifts place .waiting .free 1 g') :
      Turns g g' a
  | givesBack
      {place : Nat}
      (shifts : g.Shifts place .held .free 1 g') :
      Turns g g' (.giveBack place)

theorem turns_step
    (made : g.step? a = some g') :
    Turns g g' a := by
  cases a with
  | acquire =>
      obtain ⟨havailable, hslots⟩ := acquire_eq_some made
      exact .acquires havailable hslots
  | letIn place => exact .letsIn (letIn_shifts made)
  | fail place => exact .withdraws (Or.inl rfl) (fail_shifts made)
  | cancel place => exact .withdraws (Or.inr rfl) (cancel_shifts made)
  | giveBack place => exact .givesBack (giveBack_shifts made)

namespace Turns

theorem total_eq
    (turns : Turns g g' a) :
    g'.total = g.total := by
  unfold total
  cases turns with
  | acquires available slots =>
      have hwaiting : g'.waiting = g.waiting + 1 := by
        simp [waiting, slots]
      have hheld : g'.held = g.held := by
        simp [held, slots]
      omega
  | letsIn shifts =>
      have havailable := shifts.available
      have hwaiting : g'.waiting + 1 = g.waiting := shifts.waiting_eq
      have hheld : g'.held = g.held + 1 := shifts.held_eq
      omega
  | withdraws ends shifts =>
      have havailable := shifts.available
      have hwaiting : g'.waiting + 1 = g.waiting := shifts.waiting_eq
      have hheld : g'.held = g.held := shifts.held_eq
      omega
  | givesBack shifts =>
      have havailable := shifts.available
      have hwaiting : g'.waiting = g.waiting := shifts.waiting_eq
      have hheld : g'.held + 1 = g.held := shifts.held_eq
      omega

theorem available_eq
    (turns : Turns g g' a) :
    g'.available + (if a = .acquire then 1 else 0) =
      g.available + (if a.returns then 1 else 0) := by
  cases turns with
  | acquires available slots => exact available
  | letsIn shifts => exact shifts.available
  | @withdraws _ place ends shifts =>
      rcases ends with rfl | rfl
      · exact shifts.available
      · exact shifts.available
  | givesBack shifts => exact shifts.available

end Turns

theorem run?_cons_eq_some
    (made : g.run? (a :: steps) = some g') :
    ∃ next, g.step? a = some next ∧ next.run? steps = some g' :=
  Option.bind_eq_some_iff.mp made

/-- The number of permits is the same after every run. -/
theorem total_run
    (made : g.run? steps = some g') :
    g'.total = g.total := by
  induction steps generalizing g with
  | nil =>
      cases made
      rfl
  | cons a rest ih =>
      obtain ⟨next, hstep, hrest⟩ := run?_cons_eq_some made
      rw [ih hrest, (turns_step hstep).total_eq]

/-- What is available after a run has become less by what was taken and more by
what came back. -/
theorem available_run
    (made : g.run? steps = some g') :
    g'.available + steps.count .acquire =
      g.available + steps.countP GateStep.returns := by
  induction steps generalizing g with
  | nil =>
      cases made
      rfl
  | cons a rest ih =>
      obtain ⟨next, hstep, hrest⟩ := run?_cons_eq_some made
      have hnow := (turns_step hstep).available_eq
      have hlater := ih hrest
      rw [List.count_cons, List.countP_cons]
      simp only [beq_iff_eq] at hnow hlater ⊢
      omega

/-- No step changes the capacity. -/
theorem capacity_step
    (made : g.step? a = some g') :
    g'.capacity = g.capacity := by
  cases a <;>
    simp only [step?, Option.ite_none_left_eq_some, Option.ite_none_right_eq_some,
      Option.some.injEq] at made <;>
    · obtain ⟨-, rfl⟩ := made
      rfl

theorem capacity_run
    (made : g.run? steps = some g') :
    g'.capacity = g.capacity := by
  induction steps generalizing g with
  | nil =>
      cases made
      rfl
  | cons a rest ih =>
      obtain ⟨next, hstep, hrest⟩ := run?_cons_eq_some made
      rw [ih hrest, capacity_step hstep]

/-- Without a permit none is taken before one comes back. -/
theorem acquire_not_mem_of_none_returns
    (none_left : g.available = 0)
    (made : g.run? steps = some g')
    (none_back : ∀ a ∈ steps, a.returns = false) :
    .acquire ∉ steps := by
  have hflow := available_run made
  have hback : steps.countP GateStep.returns = 0 := by
    rw [List.countP_eq_zero]
    intro a ha
    simp [none_back a ha]
  rw [← List.count_eq_zero]
  omega

/-- A permit can be taken exactly if there is one. -/
theorem acquire_eq_none_iff :
    g.step? .acquire = none ↔ g.available = 0 := by
  simp [step?]

/-- An attempt that holds a permit can always be withdrawn, and then the permit
is back where it was taken from. -/
theorem withdraw_waiting
    {place : Nat}
    (waits : g.slots[place]? = some .waiting)
    (ends : a = .fail place ∨ a = .cancel place) :
    ∃ next,
      g.step? a = some next ∧
      next.available = g.available + 1 ∧
      next.waiting + 1 = g.waiting ∧
      next.held = g.held ∧
      ∀ other ≠ place, next.slots[other]? = g.slots[other]? := by
  have hback : g.step? a = some (g.back place) := by
    rcases ends with rfl | rfl
    · simp [step?, waits]
    · simp [step?, waits]
  have shifts : g.Shifts place .waiting .free 1 (g.back place) :=
    ⟨waits, rfl, rfl⟩
  exact
    ⟨g.back place, hback, shifts.available, shifts.waiting_eq,
      shifts.held_eq, fun _ apart => shifts.slot_ne apart⟩

/-- A client can always give its permit back. -/
theorem giveBack_held
    {place : Nat}
    (has : g.slots[place]? = some .held) :
    ∃ next,
      g.step? (.giveBack place) = some next ∧
      next.available = g.available + 1 ∧
      next.waiting = g.waiting ∧
      next.held + 1 = g.held ∧
      ∀ other ≠ place, next.slots[other]? = g.slots[other]? := by
  have shifts : g.Shifts place .held .free 1 (g.back place) :=
    ⟨has, rfl, rfl⟩
  exact
    ⟨g.back place, by simp [step?, has], shifts.available,
      shifts.waiting_eq, shifts.held_eq,
      fun _ apart => shifts.slot_ne apart⟩

end Gate

namespace Listener

variable {l : Listener}

/-- The gate of a listener that was made is a new one. -/
theorem ofCapacity?_of_bound
    {net : Network} {settings : ListenerSettings}
    (bound : (bind net settings).1 = .ok l) :
    Gate.ofCapacity? settings.maxConnections.toNat = some l.gate := by
  cases hparse : SocketAddress.parse? settings.bindAddress with
  | none =>
      simp only [bind, hparse] at bound
      cases bound
  | some wanted =>
      cases hbind : net.bind wanted with
      | error f =>
          rw [bind_of_refused hparse hbind] at bound
          cases bound
      | ok address =>
          rw [bind_of_bound hparse hbind] at bound
          cases hgate :
              Gate.ofCapacity? settings.maxConnections.toNat with
          | none =>
              rw [hgate] at bound
              cases bound
          | some gate =>
              rw [hgate] at bound
              cases bound
              rfl

/-- An attempt that finds no permit comes to nothing. -/
theorem attempt_of_none_left
    (none_left : l.gate.available = 0) :
    l.attempt = (none, l, []) := by
  rw [attempt, Gate.acquire_eq_none_iff.mpr none_left]

/-- An attempt that finds a permit lets in whoever has waited longest. -/
theorem attempt_of_available
    (some_left : 0 < l.gate.available)
    {peer : SocketAddress} {rest : List SocketAddress}
    (waits : l.backlog = peer :: rest) :
    l.attempt.1 = some (l.accepted.length, peer) := by
  have hsome : l.gate.available ≠ 0 := Nat.pos_iff_ne_zero.mp some_left
  simp only [attempt, waits, Gate.step?, if_neg hsome,
    List.getElem?_concat_length, if_true]

/--
**The permits of a listener**, for any run of attempts that take a permit, are
answered, fail or are given up, and of clients that let go, in any order.

* The capacity is the one of the settings, and it is what is available, what
  clients hold and what attempts hold, taken together.  So no more clients hold a
  permit than the settings allow, and a permit can be taken exactly if clients
  and attempts hold fewer.
* Without a permit left an attempt to accept returns nothing and changes
  nothing, and no attempt gets any further before a permit comes back.  With one
  left it returns whoever has waited longest.
* An attempt that holds a permit can fail or be given up at any time, and a
  client can let go at any time.  Either way one permit is available again, and
  no other has been touched.
* It is so in every run of a server with this gate.
-/
theorem permits_conserved
    {net : Network} {settings : ListenerSettings}
    (bound : (bind net settings).1 = .ok l)
    {steps : List GateStep} {g : Gate}
    (made : l.gate.run? steps = some g) :
    let n := settings.maxConnections.toNat
    g.capacity = n ∧
    g.available + g.held + g.waiting = n ∧
    g.held ≤ n ∧
    (g.step? .acquire ≠ none ↔ g.held + g.waiting < n) ∧
    (g.available = 0 →
      (∀ here : Listener, here.gate = g → here.attempt = (none, here, [])) ∧
      (∀ more later, g.run? more = some later →
        (∀ a ∈ more, a.returns = false) → .acquire ∉ more)) ∧
    (0 < g.available →
      ∀ (here : Listener) (peer : SocketAddress) (rest : List SocketAddress),
        here.gate = g → here.backlog = peer :: rest →
          here.attempt.1 = some (here.accepted.length, peer)) ∧
    (∀ place a,
      g.slots[place]? = some .waiting →
      a = .fail place ∨ a = .cancel place →
        ∃ next,
          g.step? a = some next ∧
          next.available = g.available + 1 ∧
          next.waiting + 1 = g.waiting ∧
          next.held = g.held ∧
          ∀ other ≠ place, next.slots[other]? = g.slots[other]?) ∧
    (∀ place,
      g.slots[place]? = some .held →
        ∃ next,
          g.step? (.giveBack place) = some next ∧
          next.available = g.available + 1 ∧
          next.waiting = g.waiting ∧
          next.held + 1 = g.held ∧
          ∀ other ≠ place, next.slots[other]? = g.slots[other]?) ∧
    (∀ {σ : Type} [Transport σ] (policy : ConnectionSettings)
      (work : List (ServerStep σ)) (s : Server σ) (T : Trace),
      ({ settings := policy, gate := l.gate } : Server σ).run? work =
          some (s, T) →
        s.gate.available + s.gate.held + s.gate.waiting = n) := by
  intro n
  have opens := ofCapacity?_of_bound bound
  have hnew : l.gate = ⟨n, n, []⟩ := by
    unfold Gate.ofCapacity? at opens
    split at opens
    · exact (Option.some.inj opens).symm
    · cases opens
  have htotal : g.available + g.held + g.waiting = n := by
    have hrun := Gate.total_run made
    rw [hnew] at hrun
    exact hrun
  have hcapacity : g.capacity = n := by
    rw [Gate.capacity_run made, hnew]
  refine
    ⟨hcapacity, htotal, by omega, ?_, ?_, ?_, ?_, ?_, ?server⟩
  · rw [ne_eq, Gate.acquire_eq_none_iff]
    omega
  · intro none_left
    constructor
    · rintro here rfl
      exact attempt_of_none_left none_left
    · intro more later hmore
      exact Gate.acquire_not_mem_of_none_returns none_left hmore
  · rintro some_left here peer rest rfl waits
    exact attempt_of_available some_left waits
  · intro place a waits ends
    exact Gate.withdraw_waiting waits ends
  · intro place has
    exact Gate.giveBack_held has
  case server =>
    intro σ _ policy work s T hrun
    have kept := Server.kept_run (Server.kept_start opens) hrun
    have hbalance : s.gate.available + s.gate.waiting + s.gate.held = n :=
      kept.permits.balance
    omega

/-- Of three attempts at a listener for two clients one is answered, one fails,
and the third takes the permit that came back and is given up. -/
theorem permits_conserved_three_attempts :
    let settings : ListenerSettings :=
      { bindAddress := "127.0.0.1:0", maxConnections := 2 }
    ∃ l g,
      (bind Network.connected settings).1 = .ok l ∧
      l.gate.run?
          [.acquire, .acquire, .letIn 0, .fail 1, .acquire, .cancel 2] =
        some g ∧
      g.slots = [.held, .free, .free] ∧
      g.available + g.held + g.waiting = 2 ∧
      ∃ next, g.step? (.giveBack 0) = some next ∧ next.available = 2 := by
  intro settings
  have bound :
      (bind Network.connected settings).1 =
        .ok { address := .v4 [127, 0, 0, 1] 0, gate := ⟨2, 2, []⟩ } := by
    cbv
  have made :
      (⟨2, 2, []⟩ : Gate).run?
          [.acquire, .acquire, .letIn 0, .fail 1, .acquire, .cancel 2] =
        some ⟨2, 1, [.held, .free, .free]⟩ := by
    decide
  obtain ⟨-, htotal, -, -, -, -, -, hlets_go, -⟩ :=
    permits_conserved bound made
  obtain ⟨next, hstep, havailable, -⟩ := hlets_go 0 rfl
  exact ⟨_, _, bound, made, rfl, htotal, next, hstep, havailable⟩

end Listener

end StreamServer
