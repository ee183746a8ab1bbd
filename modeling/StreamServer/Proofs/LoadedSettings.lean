import StreamServer.Program
import StreamServer.Proofs.Capacity
import StreamServer.Proofs.LineHandles
import StreamServer.Transport.Script

/-!
# What loaded settings are good for

Settings are validated when they are loaded, and used much later and elsewhere:
the address to listen at when the listener is made, that of the counters when they
are published, the size of reads whenever a connection is read.  None of these uses
looks at a setting again, and none of them can fail for it: the addresses are read
again and found to be ones, so only the network can refuse them, and the buffer of a
read is just as large as the settings say, neither empty nor cut to the bound.

This holds of whatever is loaded, from whatever arguments and files, for all of it
has been validated last.
-/

namespace StreamServer

namespace Settings

variable {s : Settings}

/-- What a program is given has passed validation, with all that was
overridden. -/
theorem violations_of_forProgram
    {fromFile : Option (Except SettingsError Settings)} {o : Overrides}
    (loaded : forProgram fromFile o = .ok s) :
    s.violations = [] := by
  unfold forProgram at loaded
  cases hfile : fromFile.getD (.ok {}) with
  | error e =>
      rw [hfile] at loaded
      cases loaded
  | ok f =>
      rw [hfile] at loaded
      obtain ⟨hnone, rfl⟩ := validated_eq_ok_iff.mp loaded
      exact hnone

end Settings

theorem ProgramCall.violations_of_settings
    {call : ProgramCall} {content : String → Except Fault Bytes}
    {s : Settings}
    (loaded : call.settings content = .ok s) :
    s.violations = [] := by
  cases call with
  | help full => cases loaded
  | misuse => cases loaded
  | run path o =>
      rw [ProgramCall.settings] at loaded
      split at loaded
      · next s' hprogram =>
          cases loaded
          exact Settings.violations_of_forProgram hprogram
      · cases loaded

/-! ## The addresses -/

section Addresses

variable {net : Network} {wanted : SocketAddress} {f : Fault}

/-- A listener at an address that can be read is refused by the network alone. -/
theorem Listener.bind_of_parsed
    {settings : ListenerSettings}
    (parsed : SocketAddress.parse? settings.bindAddress = some wanted) :
    (bind net settings).1 ≠ .error .noAddress ∧
      ∀ f, (bind net settings).1 = .error (.refused f) ↔
        net.bind wanted = .error f := by
  cases hbind : net.bind wanted with
  | error g => simp [bind_of_refused parsed hbind]
  | ok address =>
      rw [bind_of_bound parsed hbind]
      cases Gate.ofCapacity? settings.maxConnections.toNat <;> simp

/-- Counters at an address that can be read are refused by the network alone. -/
theorem Program.publish_error_iff
    {settings : ReportSettings}
    (enabled : settings.metricsEnabled = true)
    (parsed : SocketAddress.parse? settings.metricsAddress = some wanted) :
    (publish net settings).1 = .error (.metrics f) ↔
      net.bind wanted = .error f := by
  simp only [publish, enabled, parsed, if_true]
  cases net.bind wanted <;> simp

end Addresses

/-! ## The size of reads -/

namespace Connection

variable {σ : Type} [Transport σ]
variable {c : Connection} {h : Handle}

/-- A read on an open connection makes calls, and offers a buffer of the size in
the settings with each of them, if that is within the bound. -/
theorem calls_readDefault
    (live : c.state = .live)
    (held : c.handle = some h)
    (fits : c.settings.readSize.toNat ≤ maxReadSize)
    (t : σ) :
    (c.readDefault t).trace.calls ≠ [] ∧
      ∀ x ∈ (c.readDefault t).trace.calls, ∃ answer,
        x = (h, .receive c.settings.readSize.toNat answer) := by
  rcases read_cases c t c.settings.readSize.toNat with
    ⟨hclosed, -⟩ | ⟨h', answer, T, -, howns, retried, -, htrace⟩
  · rcases hclosed with hstate | hnone
    · exact absurd live hstate
    · rw [held] at hnone
      cases hnone
  · rw [held] at howns
    cases howns
    rw [Nat.min_eq_left fits] at retried
    rw [readDefault, htrace, Trace.calls_append, calls_received,
      List.append_nil]
    constructor
    · intro hnil
      have hlast := retried.getLast_calls
      rw [hnil] at hlast
      cases hlast
    · intro x mem
      obtain ⟨hhandle, answer, hcall⟩ := retried.of_mem_calls mem
      exact ⟨answer, Prod.ext hhandle hcall⟩

end Connection

namespace ProgramCall

/--
**Loaded settings are good for every later use**, whatever the arguments, and
whatever is read at the path they name.

* The address to listen at is one, so making a listener never fails for it; a
  listener is refused just if the network refuses that address.
* If counters are published, their address is one, and publishing them fails just
  if the network refuses that address.
* The size of reads is not zero and within the bound.  On any connection made with
  these settings, over any transport, and after any steps that leave it open, a read
  of the default size makes calls on the handle of the connection, each of them with
  a buffer of just that size.
-/
theorem loaded_settings_suffice
    {arguments : List String} {content : String → Except Fault Bytes}
    {s : Settings}
    (loaded : (ProgramCall.ofArguments arguments).settings content = .ok s) :
    (∃ wanted,
      SocketAddress.parse? s.listener.bindAddress = some wanted ∧
      ∀ net : Network,
        (Listener.bind net s.listener).1 ≠ .error .noAddress ∧
        ∀ f, (Listener.bind net s.listener).1 = .error (.refused f) ↔
          net.bind wanted = .error f) ∧
    (s.report.metricsEnabled = true →
      ∃ wanted,
        SocketAddress.parse? s.report.metricsAddress = some wanted ∧
        ∀ (net : Network) (f : Fault),
          (Program.publish net s.report).1 = .error (.metrics f) ↔
            net.bind wanted = .error f) ∧
    (0 < s.connection.readSize.toNat ∧
      s.connection.readSize.toNat ≤ maxReadSize) ∧
    (∀ (σ : Type) [Transport σ] (number : Nat) (t : σ) (l : Line σ)
      (opening : Trace) (steps : List LineStep),
      Line.open number s.connection t = (.ok (), l, opening) →
      .close ∉ steps →
      .drop ∉ steps →
        let made := ((l.run steps).1.step .readDefault).2.2.calls
        made ≠ [] ∧
        ∀ x ∈ made, ∃ answer,
          x = (⟨number, 0⟩, .receive s.connection.readSize.toNat answer)) := by
  have met := Settings.violations_eq_nil_iff.mp (violations_of_settings loaded)
  obtain ⟨wanted, parsed⟩ :=
    Settings.bindAddress_of_valid (violations_of_settings loaded)
  refine ⟨⟨wanted, parsed, fun net => Listener.bind_of_parsed parsed⟩,
    ?counters, met .readSize, ?reads⟩
  case counters =>
    intro enabled
    obtain ⟨address, hparsed⟩ :=
      Option.isSome_iff_exists.mp (met .metricsAddress enabled)
    exact ⟨address, hparsed,
      fun net f => Program.publish_error_iff enabled hparsed⟩
  case reads =>
    intro σ _ number t l opening steps opened unclosed kept
    obtain ⟨c, rfl, hmade, -⟩ := Line.open_ok opened
    have hc := Line.connection_run (l := ⟨t, 1, some c, []⟩) rfl kept
    rw [if_neg unclosed] at hc
    have hfits : c.settings.readSize.toNat ≤ maxReadSize := by
      rw [hmade.settings_eq]
      exact (met .readSize).2
    simp only [Line.step, hc, Line.onConnection]
    rw [← hmade.settings_eq]
    exact Connection.calls_readDefault hmade.live hmade.owns hfits _

/-- The largest reads and published counters, from a file, and an address from the
arguments.  Only a network that refuses everything is in the way. -/
theorem loaded_settings_suffice_largest_reads :
    let arguments := ["-c", "a.toml", "--bind=[::1]:0"]
    let content : String → Except Fault Bytes :=
      fun _ =>
        .ok (Bytes.ofString
          ("[connection]\nread_size = 65536\n" ++
            "[observability]\nmetrics_enabled = true\n"))
    let s : Settings :=
      { connection := { readSize := 65536 }
        listener := { bindAddress := "[::1]:0" }
        report := { metricsEnabled := true } }
    let closedOff : Network := ⟨fun _ => .error (.system 13), fun _ => .ok ()⟩
    let t : Script :=
      { descriptor := 7
        peer := .ok "a"
        reads := [.fault (.bare .interrupted), .chunk [1, 2] none] }
    let opened := Line.open 3 s.connection t
    let steps : List LineStep := [.interrupter, .write [9]]
    let made := ((opened.2.1.run steps).1.step .readDefault).2.2.calls
    (ProgramCall.ofArguments arguments).settings content = .ok s ∧
    s.report.metricsEnabled = true ∧
    (Listener.bind closedOff s.listener).1 = .error (.refused (.system 13)) ∧
    (Program.publish closedOff s.report).1 = .error (.metrics (.system 13)) ∧
    opened = (.ok (), opened.2.1, opened.2.2) ∧
    .close ∉ steps ∧
    .drop ∉ steps ∧
    made ≠ [] ∧
    ∀ x ∈ made, ∃ answer, x = (⟨3, 0⟩, .receive 65536 answer) := by
  intro arguments content s closedOff t opened steps made
  have hread :
      ((ProgramCall.ofArguments arguments).settings content).toOption =
        some s := by
    decide +kernel
  have loaded : (ProgramCall.ofArguments arguments).settings content = .ok s := by
    cases houtcome : (ProgramCall.ofArguments arguments).settings content with
    | error e =>
        rw [houtcome] at hread
        cases hread
    | ok s' =>
        rw [houtcome] at hread
        cases hread
        rfl
  have enabled : s.report.metricsEnabled = true := rfl
  have unclosed : .close ∉ steps := by decide
  have kept : .drop ∉ steps := by decide
  obtain ⟨⟨_, -, hlistener⟩, hcounters, -, hreads⟩ :=
    loaded_settings_suffice loaded
  obtain ⟨_, -, hpublish⟩ := hcounters enabled
  obtain ⟨hmade, hroom⟩ :=
    hreads Script 3 t opened.2.1 opened.2.2 steps rfl unclosed kept
  exact ⟨loaded, enabled, ((hlistener closedOff).2 _).mpr rfl,
    (hpublish closedOff _).mpr rfl, rfl, unclosed, kept, hmade, hroom⟩

end ProgramCall

end StreamServer
