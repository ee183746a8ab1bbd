import StreamServer.Proofs.Attempts
import StreamServer.Transport.Script

/-!
# The first answer to a write

A write offers its payload again and again while the transport breaks the call
off.  What the transport would answer to one offer after another is a sequence,
and the first answer in it that is for good decides the write: how many calls it
makes, and what it returns.

Only the kind of a fault decides anything, so faults that come with an error
number do what the kind does that goes with the number.
-/

namespace StreamServer

/-- Answers that are the same, up to faults of the same kind. -/
def Kindred : Except Fault Nat → Except Fault Nat → Prop
  | .ok n, .ok m => n = m
  | .error f, .error g => f.kind = g.kind
  | _, _ => False

namespace Attempts

theorem isBrokenOff_eq_of_kindred
    {a b : Except Fault Nat}
    (kindred : Kindred a b) :
    isBrokenOff a = isBrokenOff b := by
  cases a with
  | ok n =>
      cases b with
      | ok m => rfl
      | error g => exact kindred.elim
  | error f =>
      cases b with
      | ok m => exact kindred.elim
      | error g =>
          have hkind : f.kind = g.kind := kindred
          simp only [isBrokenOff, Fault.isInterrupted, hkind]

/-- Calls that are given kindred answers settle after as many. -/
theorem SettledAfter.of_kindred
    {σ σ' : Type}
    {ask : σ → Except Fault Nat × σ} {ask' : σ' → Except Fault Nat × σ'}
    {t : σ} {t' : σ'} {k : Nat}
    (settled : SettledAfter ask t k)
    (kindred : ∀ i, Kindred (answerAfter ask t i) (answerAfter ask' t' i)) :
    SettledAfter ask' t' k := by
  constructor
  · rw [← isBrokenOff_eq_of_kindred (kindred k)]
    exact settled.last
  · intro i hi
    rw [← isBrokenOff_eq_of_kindred (kindred i)]
    exact settled.before i hi

end Attempts

namespace Connection

open Attempts

variable {σ : Type} [Transport σ]

/-! ## The loop -/

/-- A write of something on an open connection is its loop, the last answer read,
and an event if that is a success. -/
theorem write_of_settledAfter
    {c : Connection} {h : Handle}
    (live : c.state = .live)
    (held : c.handle = some h)
    {t : σ} {data : Bytes} {k : Nat}
    (some_data : data ≠ [])
    (settled : SettledAfter (fun t : σ => Transport.send t data) t k) :
    let ask := fun t : σ => Transport.send t data
    let result := c.writeResult data (answerAfter ask t k)
    c.write t data =
      ⟨result, leftBy ask t (k + 1),
        ((List.range (k + 1)).map fun i =>
          .call h (.send data (answerAfter ask t i))) ++
          c.sent result⟩ := by
  have hloop := (repeats_sendThrough h data).eq_of_settledAfter settled
  simp only [write, live, held, if_neg some_data, hloop]

/-- The calls of such a write are the offers, up to and with the last. -/
theorem calls_write_of_settledAfter
    {c : Connection} {h : Handle}
    (live : c.state = .live)
    (held : c.handle = some h)
    {t : σ} {data : Bytes} {k : Nat}
    (some_data : data ≠ [])
    (settled : SettledAfter (fun t : σ => Transport.send t data) t k) :
    (c.write t data).trace.calls =
      (List.range (k + 1)).map fun i =>
        (h, .send data
          (answerAfter (fun t : σ => Transport.send t data) t i)) := by
  rw [write_of_settledAfter live held some_data settled,
    Trace.calls_append, calls_sent, List.append_nil, Trace.calls_map]

theorem write_nil
    {c : Connection} {h : Handle}
    (live : c.state = .live)
    (held : c.handle = some h)
    (t : σ) :
    (c.write t []).result = .ok 0 ∧
      (c.write t []).transport = t ∧
      (c.write t []).trace.calls = [] := by
  simp [write, live, held]

/-! ## What a write returns -/

/-- Results that are the same, up to faults of the same kind. -/
def KindredResults :
    Except ConnectionError Nat → Except ConnectionError Nat → Prop
  | .ok n, .ok m => n = m
  | .error (.writeFailed p f), .error (.writeFailed q g) =>
      p = q ∧ f.kind = g.kind
  | _, _ => False

theorem kindred_writeResult
    (c : Connection) (data : Bytes)
    {a b : Except Fault Nat}
    (kindred : Kindred a b) :
    KindredResults (c.writeResult data a) (c.writeResult data b) := by
  cases a with
  | ok n =>
      cases b with
      | ok m =>
          obtain rfl : n = m := kindred
          simp only [writeResult]
          split
          · exact ⟨rfl, rfl⟩
          · exact rfl
      | error g => exact kindred.elim
  | error f =>
      cases b with
      | ok m => exact kindred.elim
      | error g =>
          have hkind : f.kind = g.kind := kindred
          have hblocks : f.isWouldBlock = g.isWouldBlock := by
            simp only [Fault.isWouldBlock, hkind]
          simp only [writeResult, hblocks]
          cases g.isWouldBlock with
          | true => exact rfl
          | false => exact ⟨rfl, hkind⟩

/--
**A write returns what the first answer for good says**, for any connection that
is open, any payload and any transport.

* An empty payload is not offered, and the write returns zero.
* Any other payload is offered as a whole, up to and with the first answer that
  does not break the call off; and there is such an answer.
* A count within the payload is returned.  A count beyond it is a failed write,
  for invalid data, with both counts.  A transport that would block makes it
  return zero; any other fault is a failed write with that very fault.  A failed
  write shows the beginning of the payload.
* So a count that is returned is never beyond the payload.
* Faults of the same kind do the same, whether they come with a number or not.
-/
theorem write_returns_first_answer
    {c : Connection} {h : Handle}
    (live : c.state = .live)
    (held : c.handle = some h)
    (t : σ) (data : Bytes) :
    let o := c.write t data
    let ask := fun t : σ => Transport.send t data
    let shown := preview data c.settings.previewLength.toNat
    (data = [] →
      o.result = .ok 0 ∧ o.transport = t ∧ o.trace.calls = []) ∧
    (data ≠ [] →
      (∃ k, SettledAfter ask t k) ∧
      ∀ k, SettledAfter ask t k →
        o.trace.calls =
          (List.range (k + 1)).map
            (fun i => (h, .send data (answerAfter ask t i))) ∧
        o.transport = leftBy ask t (k + 1) ∧
        o.result =
          match answerAfter ask t k with
          | .ok n =>
              if n ≤ data.length then .ok n
              else
                .error (.writeFailed shown
                  (.custom .invalidData
                    ("transport reported " ++ toString n ++
                      " bytes sent for a " ++ toString data.length ++
                      " byte payload")))
          | .error f =>
              if f.kind = .wouldBlock then .ok 0
              else .error (.writeFailed shown f)) ∧
    (∀ n, o.result = .ok n → n ≤ data.length) ∧
    (∀ (σ' : Type) [Transport σ'] (t' : σ'),
      let ask' := fun t : σ' => Transport.send t data
      (∀ i, Kindred (answerAfter ask t i) (answerAfter ask' t' i)) →
        KindredResults o.result (c.write t' data).result ∧
        (c.write t' data).trace.calls.length = o.trace.calls.length) := by
  intro o ask shown
  refine ⟨?empty, ?offered, fun n done => (write_ok done).1, ?kindred⟩
  case empty =>
    rintro rfl
    exact write_nil live held t
  case offered =>
    intro some_data
    refine ⟨exists_settledAfter_send t data, fun k settled => ?_⟩
    have hwrite := write_of_settledAfter live held some_data settled
    refine ⟨calls_write_of_settledAfter live held some_data settled,
      congrArg Outcome.transport hwrite, ?_⟩
    refine (congrArg Outcome.result hwrite).trans ?_
    show c.writeResult data (answerAfter ask t k) = _
    cases answerAfter ask t k with
    | ok n => simp only [writeResult, ← Nat.not_le, ite_not, overreport]; rfl
    | error f => simp only [writeResult, Fault.isWouldBlock, beq_iff_eq]; rfl
  case kindred =>
    intro σ' _ t' ask' kindred
    by_cases hnil : data = []
    · subst hnil
      obtain ⟨hresult, -, hcalls⟩ := write_nil live held t
      obtain ⟨hresult', -, hcalls'⟩ := write_nil live held t'
      rw [hresult', hcalls']
      exact ⟨by rw [hresult]; rfl, by rw [hcalls]⟩
    · obtain ⟨k, settled⟩ := exists_settledAfter_send t data
      have settled' := settled.of_kindred kindred
      have hresult := congrArg Outcome.result
        (write_of_settledAfter live held hnil settled)
      have hresult' := congrArg Outcome.result
        (write_of_settledAfter live held hnil settled')
      refine ⟨?_, ?_⟩
      · rw [hresult, hresult']
        exact kindred_writeResult c data (kindred k)
      · rw [calls_write_of_settledAfter live held hnil settled,
          calls_write_of_settledAfter live held hnil settled',
          List.length_map, List.length_map]

/-- Broken off twice, once with a number, then taken in part. -/
theorem write_returns_first_answer_third :
    let c : Connection :=
      { handle := some ⟨0, 0⟩
        id := 3
        origin := "a"
        state := .live
        settings := {} }
    let t : Script :=
      { descriptor := 3
        peer := .ok "a"
        writes :=
          [.error (.system 4), .error (.bare .interrupted), .ok 2] }
    let ask := fun t : Script => Transport.send t [7, 8, 9]
    SettledAfter ask t 2 ∧
    (c.write t [7, 8, 9]).result = .ok 2 ∧
    (c.write t [7, 8, 9]).trace.calls =
      [(⟨0, 0⟩, .send [7, 8, 9] (.error (.system 4))),
        (⟨0, 0⟩, .send [7, 8, 9] (.error (.bare .interrupted))),
        (⟨0, 0⟩, .send [7, 8, 9] (.ok 2))] := by
  intro c t ask
  have settled : SettledAfter ask t 2 := ⟨by decide, by decide⟩
  obtain ⟨-, hoffered, -⟩ :=
    write_returns_first_answer (c := c) rfl rfl t [7, 8, 9]
  obtain ⟨hcalls, -, hresult⟩ := (hoffered (by decide)).2 2 settled
  exact ⟨settled, hresult, hcalls⟩

end Connection

end StreamServer
