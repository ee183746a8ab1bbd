/-!
# The gate

A gate lets a fixed number of connections in at once.  Whoever waits for a client takes a permit
first; the permit stays with the client who comes, and goes back when nobody came, when the call
failed, or when the client has been served.

Every permit that was ever taken has a place, and the place tells what has become of it.
-/

namespace StreamServer

/-- What has become of a permit that was taken: an attempt holds it and waits for a client, a client
holds it, or it went back. -/
inductive Slot
  | waiting
  | held
  | free
  deriving Repr, DecidableEq

/-- A gate: how many permits there are, how many of them can be taken, and what has become of each
that was taken. -/
structure Gate where
  capacity : Nat
  available : Nat
  slots : List Slot
  deriving Repr, DecidableEq

/-- What can happen at a gate. -/
inductive GateStep
  | acquire
  | letIn (place : Nat)
  | fail (place : Nat)
  | cancel (place : Nat)
  | giveBack (place : Nat)
  deriving Repr, DecidableEq

namespace Gate

/-- The largest number of permits that a gate can have. -/
def maxCapacity : Nat :=
  UInt64.size / 8 - 1

/-- What is said of a capacity that is too large. -/
def overflowMessage : String :=
  "a semaphore may not have more than MAX_PERMITS permits (" ++ toString maxCapacity ++ ")"

/-- A new gate, if it can have so many permits. -/
def ofCapacity? (n : Nat) : Option Gate :=
  if n ≤ maxCapacity then some ⟨n, n, []⟩ else none

/-- How many attempts hold a permit and wait for a client. -/
def waiting (g : Gate) : Nat :=
  g.slots.count .waiting

/-- How many clients hold a permit. -/
def held (g : Gate) : Nat :=
  g.slots.count .held

/-- The gate with a permit back from a place. -/
def back (g : Gate) (place : Nat) : Gate :=
  { g with available := g.available + 1, slots := g.slots.set place .free }

/-- One step, if it can happen. -/
def step? (g : Gate) : GateStep → Option Gate
  | .acquire =>
      if g.available = 0 then none
      else some { g with available := g.available - 1, slots := g.slots ++ [.waiting] }
  | .letIn place =>
      if g.slots[place]? = some .waiting then some { g with slots := g.slots.set place .held }
      else none
  | .fail place =>
      if g.slots[place]? = some .waiting then some (g.back place) else none
  | .cancel place =>
      if g.slots[place]? = some .waiting then some (g.back place) else none
  | .giveBack place =>
      if g.slots[place]? = some .held then some (g.back place) else none

/-- The gate after a run of steps, if all of them can happen. -/
def run? (g : Gate) : List GateStep → Option Gate
  | [] => some g
  | a :: rest => (g.step? a).bind fun next => next.run? rest

end Gate

end StreamServer
