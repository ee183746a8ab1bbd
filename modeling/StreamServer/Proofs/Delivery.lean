import Mathlib
import StreamServer.Proofs.Transfer
import StreamServer.Transport.Script

/-!
# Delivery of a payload

Writing a payload to its end, over any transport.  What the transport takes is
always a prefix of the payload.  The delivery succeeds exactly if that prefix is
the whole payload; otherwise it stops at a rest that is not empty, and the error
quotes the beginning of this rest and names what stopped it.

The induction is on the payload that is left: a write that takes something
leaves less of it, and a write that takes nothing ends the delivery.
-/

namespace StreamServer

namespace Connection

variable {σ : Type} [Transport σ]
variable {c : Connection} {h : Handle}

/--
What stops a delivery before its end: the last answer of the transport, given
to an offer of `rest`, and the fault that is reported for it.
-/
inductive StopsBy (rest : Bytes) :
    Except Fault Nat → Fault → Prop
  | nothingTaken :
      StopsBy rest (.ok 0) (.bare .writeZero)
  | wouldBlock
      (f : Fault)
      (blocked : f.kind = .wouldBlock) :
      StopsBy rest (.error f) (.bare .writeZero)
  | tooMuch
      (n : Nat)
      (beyond : rest.length < n)
      (invalid : (overreport n rest.length).kind = .invalidData) :
      StopsBy rest (.ok n) (overreport n rest.length)
  | failed
      (f : Fault)
      (not_blocked : f.kind ≠ .wouldBlock)
      (not_broken : f.kind ≠ .interrupted) :
      StopsBy rest (.error f) f

/-- A write of something that fails stops a delivery. -/
theorem write_error_stops
    (live : c.state = .live)
    (owns : c.handle = some h)
    {t : σ} {data : Bytes} {e : ConnectionError}
    (failed : (c.write t data).result = .error e) :
    ∃ answer f,
      StopsBy data answer f ∧
      (c.write t data).trace.calls.getLast? =
        some (h, .send data answer) ∧
      e = .writeFailed
        (preview data c.settings.previewLength.toNat) f := by
  rcases write_cases c t data with
    ⟨hended, -⟩ | ⟨-, hw⟩ |
      ⟨h', answer, T, -, howns, -, retried, hresult, htrace⟩
  · simp [live, owns] at hended
  · rw [hw] at failed
    cases failed
  · rw [owns] at howns
    cases howns
    have hlast :
        (c.write t data).trace.calls.getLast? =
          some (h, .send data answer) := by
      rw [htrace, Trace.calls_append, calls_sent, List.append_nil]
      exact retried.getLast_calls
    rw [hresult] at failed
    cases answer with
    | ok n =>
        simp only [writeResult] at failed
        split at failed
        · next beyond =>
            cases failed
            exact ⟨_, _, .tooMuch n beyond rfl, hlast, rfl⟩
        · cases failed
    | error f =>
        have hf := retried.not_interrupted rfl
        simp only [writeResult] at failed
        split at failed
        · cases failed
        · next hblock =>
            cases failed
            refine ⟨_, f, .failed f ?_ ?_, hlast, rfl⟩
            · simpa [Fault.isWouldBlock] using hblock
            · simpa [Fault.isInterrupted] using hf

/-- A write of something that takes nothing stops a delivery. -/
theorem write_zero_stops
    (owns : c.handle = some h)
    {t : σ} {data : Bytes}
    (hne : data ≠ [])
    (none_taken : (c.write t data).result = .ok 0) :
    ∃ answer,
      StopsBy data answer (.bare .writeZero) ∧
      (c.write t data).trace.calls.getLast? =
        some (h, .send data answer) := by
  rcases write_cases c t data with
    ⟨-, hw⟩ | ⟨hnil, -⟩ |
      ⟨h', answer, T, -, howns, -, retried, hresult, htrace⟩
  · rw [hw] at none_taken
    cases none_taken
  · exact absurd hnil hne
  · rw [owns] at howns
    cases howns
    have hlast :
        (c.write t data).trace.calls.getLast? =
          some (h, .send data answer) := by
      rw [htrace, Trace.calls_append, calls_sent, List.append_nil]
      exact retried.getLast_calls
    rw [hresult] at none_taken
    cases answer with
    | ok n =>
        simp only [writeResult] at none_taken
        split at none_taken
        · cases none_taken
        · cases none_taken
          exact ⟨_, .nothingTaken, hlast⟩
    | error f =>
        simp only [writeResult] at none_taken
        split at none_taken
        · next hblock =>
            refine ⟨_, .wouldBlock f ?_, hlast⟩
            simpa [Fault.isWouldBlock] using hblock
        · cases none_taken

/-! ## The whole payload -/

/-- A delivery brings nothing. -/
@[simp] theorem reads_writeAll
    (c : Connection) (t : σ) (data : Bytes) :
    (c.writeAll t data).trace.reads = [] := by
  unfold Trace.reads
  rw [List.filterMap_eq_nil_iff]
  intro a mem
  obtain ⟨u, offered, ha⟩ := exists_write_of_mem_writeAll mem
  have hwrite := reads_write c u offered
  unfold Trace.reads at hwrite
  exact List.filterMap_eq_nil_iff.mp hwrite a ha

/-- No more writes are answered for good than there are octets. -/
theorem settledSends_writeAll_le
    (c : Connection) (t : σ) (data : Bytes) :
    (c.writeAll t data).trace.settledSends ≤ data.length := by
  fun_induction writeAll c t data with
  | case1 t => exact Nat.zero_le _
  | case2 t b rest o e failed =>
      have hone : o.trace.settledSends ≤ 1 :=
        settledSends_write_le c t (b :: rest)
      simp only [List.length_cons]
      omega
  | case3 t b rest o none_taken =>
      have hone : o.trace.settledSends ≤ 1 :=
        settledSends_write_le c t (b :: rest)
      simp only [List.length_cons]
      omega
  | case4 t b rest o n some_taken ih =>
      have hone : o.trace.settledSends ≤ 1 :=
        settledSends_write_le c t (b :: rest)
      simp only [Outcome.after, Trace.settledSends_append,
        List.length_cons]
      rw [List.length_drop] at ih
      omega

/-- A delivery ends with the whole payload taken, or it stops at a rest that
is not empty and was offered last. -/
theorem writeAll_cases
    (live : c.state = .live)
    (owns : c.handle = some h)
    (t : σ) (data : Bytes) :
    ((c.writeAll t data).result = .ok () ∧
      (c.writeAll t data).trace.outflow = data) ∨
    (∃ rest answer f,
      rest ≠ [] ∧
      data = (c.writeAll t data).trace.outflow ++ rest ∧
      (c.writeAll t data).trace.calls.getLast? =
        some (h, .send rest answer) ∧
      StopsBy rest answer f ∧
      (c.writeAll t data).result =
        .error (.writeFailed
          (preview rest c.settings.previewLength.toNat) f)) := by
  fun_induction writeAll c t data with
  | case1 t => exact Or.inl ⟨rfl, rfl⟩
  | case2 t b rest o e failed =>
      obtain ⟨answer, f, hstops, hlast, rfl⟩ :=
        write_error_stops live owns failed
      refine Or.inr
        ⟨b :: rest, answer, f, by simp, ?_, hlast, hstops, rfl⟩
      have hnone : o.trace.outflow = [] :=
        outflow_write_error failed
      rw [hnone, List.nil_append]
  | case3 t b rest o none_taken =>
      obtain ⟨answer, hstops, hlast⟩ :=
        write_zero_stops owns (by simp) none_taken
      refine Or.inr
        ⟨b :: rest, answer, _, by simp, ?_, hlast, hstops, rfl⟩
      have hnone : o.trace.outflow = [] :=
        (write_ok none_taken).2
      rw [hnone, List.nil_append]
  | case4 t b rest o n some_taken ih =>
      have htook : o.trace.outflow = (b :: rest).take (n + 1) :=
        (write_ok some_taken).2
      have hsplit :
          (b :: rest).take (n + 1) ++ rest.drop n = b :: rest := by
        simp
      simp only [Outcome.after, Trace.outflow_append, htook]
      rcases ih with
        ⟨hdone, hall⟩ |
          ⟨left, answer, f, hne, hleft, hlast, hstops, hresult⟩
      · exact Or.inl ⟨hdone, by rw [hall, hsplit]⟩
      · refine Or.inr
          ⟨left, answer, f, hne, ?_, ?_, hstops, hresult⟩
        · rw [List.append_assoc, ← hleft, hsplit]
        · rw [Trace.calls_append, List.getLast?_append, hlast]
          rfl

/-- What is taken of a payload is a prefix of it. -/
theorem outflow_writeAll_within
    (live : c.state = .live)
    (owns : c.handle = some h)
    (t : σ) (data : Bytes) :
    (c.writeAll t data).trace.outflow <+: data := by
  rcases writeAll_cases live owns t data with
    ⟨-, hall⟩ | ⟨rest, _, _, -, hrest, -⟩
  · exact ⟨[], by rw [hall, List.append_nil]⟩
  · exact ⟨rest, hrest.symm⟩

/-- A delivery succeeds exactly if all of the payload is taken. -/
theorem writeAll_ok_iff
    (live : c.state = .live)
    (owns : c.handle = some h)
    (t : σ) (data : Bytes) :
    (c.writeAll t data).result = .ok () ↔
      (c.writeAll t data).trace.outflow = data := by
  rcases writeAll_cases live owns t data with
    ⟨hok, hall⟩ | ⟨rest, _, _, hne, hrest, -, -, hfailed⟩
  · simp [hok, hall]
  · constructor
    · intro hok
      rw [hfailed] at hok
      cases hok
    · intro hall
      rw [hall] at hrest
      exact absurd (List.self_eq_append_right.mp hrest) hne

/--
**Delivery of a payload**, over any transport.

* At every moment the octets taken are a prefix of the payload.
* The delivery succeeds exactly if they are all of it in the end.
* Otherwise its error quotes the rest that was not taken, which is not empty
  and was offered last, and names what stopped it.
* No write ever reports more than it was given, so what is left after it is a
  part of what was offered.
* No more writes are answered for good than there are octets.
-/
theorem writeAll_delivers
    (live : c.state = .live)
    (owns : c.handle = some h)
    (t : σ) (data : Bytes) :
    (∀ moment : Trace,
      moment <+: (c.writeAll t data).trace →
      moment.outflow <+: data) ∧
    ((c.writeAll t data).result = .ok () ↔
      (c.writeAll t data).trace.outflow = data) ∧
    (∀ e, (c.writeAll t data).result = .error e →
      ∃ rest answer f,
        rest ≠ [] ∧
        data = (c.writeAll t data).trace.outflow ++ rest ∧
        (c.writeAll t data).trace.calls.getLast? =
          some (h, .send rest answer) ∧
        StopsBy rest answer f ∧
        e = .writeFailed
          (preview rest c.settings.previewLength.toNat) f) ∧
    (∀ (u : σ) (offered : Bytes) (n : Nat),
      (c.write u offered).result = .ok n →
      n ≤ offered.length) ∧
    (c.writeAll t data).trace.settledSends ≤ data.length := by
  refine
    ⟨?_, writeAll_ok_iff live owns t data, ?_, ?_,
      settledSends_writeAll_le c t data⟩
  · intro moment hmoment
    exact (Trace.outflow_mono hmoment).trans
      (outflow_writeAll_within live owns t data)
  · intro e he
    rcases writeAll_cases live owns t data with
      ⟨hok, -⟩ | ⟨rest, answer, f, hne, hrest, hlast, hstops, hfailed⟩
    · rw [hok] at he
      cases he
    · rw [hfailed] at he
      cases he
      exact ⟨rest, answer, f, hne, hrest, hlast, hstops, rfl⟩
  · intro u offered n hok
    exact (write_ok hok).1

/-- A delivery over a transport that takes two octets, is broken off, takes one
and then refuses to go on. -/
theorem writeAll_delivers_until_refused :
    let c : Connection :=
      ⟨some ⟨0, 0⟩, 42, "203.0.113.5:51000", .live, {}⟩
    let t : Script :=
      { descriptor := 42
        peer := .ok "203.0.113.5:51000"
        writes :=
          [.ok 2, .error (.bare .interrupted), .ok 1,
            .error (.system 32)] }
    let data : Bytes := [104, 101, 108, 108, 111]
    c.state = .live ∧
    c.handle = some ⟨0, 0⟩ ∧
    (c.writeAll t data).trace.outflow = [104, 101, 108] ∧
    (c.writeAll t data).result =
      .error (.writeFailed "lo" (.system 32)) ∧
    (∀ moment : Trace,
      moment <+: (c.writeAll t data).trace →
      moment.outflow <+: data) ∧
    (c.writeAll t data).trace.settledSends ≤ 5 := by
  intro c t data
  obtain ⟨hwithin, -, -, -, hcount⟩ :=
    writeAll_delivers (c := c) (h := ⟨0, 0⟩) rfl rfl t data
  exact ⟨rfl, rfl, by cbv, by cbv, hwithin, hcount⟩

end Connection

end StreamServer
