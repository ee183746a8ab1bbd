import Mathlib
import StreamServer.Listener
import StreamServer.Proofs.Conditions
import StreamServer.Settings.Source

/-!
# The capacity of a listener

Valid settings name an address and at least one connection, so a listener can be
made of them unless the network refuses the address or the gate refuses the
capacity.  Validation does not know the limit of the gate: the settings that
pass it and still have too large a capacity are exactly those above
`Gate.maxCapacity`, and for them there is neither a listener nor a failure of
the call that binds it.
-/

namespace StreamServer

namespace Gate

theorem ofCapacity?_of_le
    {n : Nat}
    (fits : n ≤ maxCapacity) :
    ofCapacity? n = some ⟨n, n, []⟩ := by
  rw [ofCapacity?, if_pos fits]

theorem ofCapacity?_of_lt
    {n : Nat}
    (beyond : maxCapacity < n) :
    ofCapacity? n = none := by
  rw [ofCapacity?, if_neg (Nat.not_le.mpr beyond)]

end Gate

namespace Settings

variable {s : Settings}

theorem bindAddress_of_valid
    (valid : s.violations = []) :
    ∃ wanted,
      SocketAddress.parse? s.listener.bindAddress = some wanted := by
  have met := violations_eq_nil_iff.mp valid .bindAddress
  exact Option.isSome_iff_exists.mp met

theorem maxConnections_pos_of_valid
    (valid : s.violations = []) :
    0 < s.listener.maxConnections.toNat :=
  violations_eq_nil_iff.mp valid .maxConnections

end Settings

namespace Listener

variable {net : Network} {settings : ListenerSettings}
variable {wanted address : SocketAddress}

theorem bind_of_refused
    {f : Fault}
    (parsed : SocketAddress.parse? settings.bindAddress = some wanted)
    (refused : net.bind wanted = .error f) :
    (bind net settings).1 = .error (.refused f) := by
  simp only [bind, parsed, refused]

/-- Once the address is had, the capacity decides. -/
theorem bind_of_bound
    (parsed : SocketAddress.parse? settings.bindAddress = some wanted)
    (bound : net.bind wanted = .ok address) :
    (bind net settings).1 =
      match Gate.ofCapacity? settings.maxConnections.toNat with
      | none => .error .overfull
      | some gate => .ok { address, gate } := by
  simp only [bind, parsed, bound]
  cases Gate.ofCapacity? settings.maxConnections.toNat <;> rfl

/--
**The capacity of a listener** that is made as valid settings say, on any
network.

* The network refuses the address, and that is the failure; or there is a
  listener with all its permits free, as many as the settings say; or the
  capacity is too large for a gate, which is no failure of the call.
* The capacity is never the obstacle, on whatever network, exactly if it is at
  most that of the largest gate.
-/
theorem bind_of_valid
    {s : Settings}
    (valid : s.validate = .ok s) :
    (∀ net : Network,
      (∃ f, (bind net s.listener).1 = .error (.refused f)) ∨
      (∃ l,
        (bind net s.listener).1 = .ok l ∧
        l.gate.available = s.listener.maxConnections.toNat ∧
        l.gate.capacity = s.listener.maxConnections.toNat ∧
        0 < s.listener.maxConnections.toNat) ∨
      ((bind net s.listener).1 = .error .overfull ∧
        Gate.maxCapacity < s.listener.maxConnections.toNat)) ∧
    ((∀ net : Network, (bind net s.listener).1 ≠ .error .overfull) ↔
      s.listener.maxConnections.toNat ≤ Gate.maxCapacity) := by
  have hnone := (Settings.validate_eq_ok_iff.mp valid).1
  obtain ⟨wanted, parsed⟩ := Settings.bindAddress_of_valid hnone
  have hpos := Settings.maxConnections_pos_of_valid hnone
  constructor
  · intro net
    cases hbind : net.bind wanted with
    | error f =>
        left
        exact ⟨f, bind_of_refused parsed hbind⟩
    | ok address =>
        right
        rw [bind_of_bound parsed hbind]
        rcases Nat.lt_or_ge Gate.maxCapacity
            s.listener.maxConnections.toNat with beyond | fits
        · right
          rw [Gate.ofCapacity?_of_lt beyond]
          exact ⟨rfl, beyond⟩
        · left
          rw [Gate.ofCapacity?_of_le fits]
          exact ⟨_, rfl, rfl, rfl, hpos⟩
  · constructor
    · intro never
      rw [← Nat.not_lt]
      intro beyond
      have hbound : Network.connected.bind wanted = .ok wanted := rfl
      refine never Network.connected ?_
      rw [bind_of_bound parsed hbound, Gate.ofCapacity?_of_lt beyond]
    · intro fits net
      cases hbind : net.bind wanted with
      | error f =>
          rw [bind_of_refused parsed hbind]
          simp
      | ok address =>
          rw [bind_of_bound parsed hbind, Gate.ofCapacity?_of_le fits]
          simp

/-- The largest gate of all. -/
theorem bind_of_valid_largest :
    let s : Settings :=
      { listener := { maxConnections := 2305843009213693951 } }
    s.validate = .ok s ∧
    (∀ net : Network, (bind net s.listener).1 ≠ .error .overfull) := by
  intro s
  have valid : s.validate = .ok s := by cbv
  exact ⟨valid, (bind_of_valid valid).2.mpr (by decide)⟩

/-- A text can describe valid settings with one connection more than the largest
gate has. -/
theorem valid_but_overfull :
    let text := "[listener]\nmax_connections = 2305843009213693952\n"
    ∃ s,
      Settings.parse text = .ok s ∧
      s.validate = .ok s ∧
      (bind Network.connected s.listener).1 = .error .overfull := by
  intro text
  have hread :
      (Settings.parse text).toOption =
        some { listener := { maxConnections := 2305843009213693952 } } := by
    decide +kernel
  refine
    ⟨{ listener := { maxConnections := 2305843009213693952 } }, ?_,
      by cbv, by cbv⟩
  cases hparse : Settings.parse text with
  | ok s =>
      rw [hparse] at hread
      cases hread
      rfl
  | error e =>
      rw [hparse] at hread
      cases hread

end Listener

end StreamServer
