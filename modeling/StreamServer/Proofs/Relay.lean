import StreamServer.Proofs.Transfer
import StreamServer.Sink

/-!
# What a sink makes of a trace

A sink takes the events out of a trace, and what it does with them is seen in
their place.  It makes no call on a transport, whatever its leaves are and
however they hang together, so the calls of a trace are seen as they are made.
A leaf that keeps events keeps all events of the trace, in order.
-/

namespace StreamServer

namespace Trace

theorem calls_cons_call
    (h : Handle) (k : Call) (T : Trace) :
    calls (.call h k :: T) = (h, k) :: T.calls := by
  rfl

end Trace

namespace Board

variable {ω : Type} [Writer ω]

/-- A leaf makes no call. -/
theorem calls_deliver
    (b : Board ω) (e : Event) (i : Nat) :
    (b.deliver e i).2.calls = [] := by
  unfold deliver
  split
  · rfl
  · rfl
  · rfl
  · rfl
  · rfl
  · split <;> rfl

mutual

/-- A sink makes no call. -/
theorem calls_emit
    (b : Board ω) (e : Event) (r : Route) :
    (b.emit e r).2.calls = [] := by
  cases r with
  | leaf i => exact b.calls_deliver e i
  | fanout branches => exact b.calls_emitAll e branches

theorem calls_emitAll
    (b : Board ω) (e : Event) (rs : List Route) :
    (b.emitAll e rs).2.calls = [] := by
  cases rs with
  | nil => rfl
  | cons r rest =>
      have hfirst := b.calls_emit e r
      have hmore := (b.emit e r).1.calls_emitAll e rest
      simp only [emitAll, Trace.calls_append, hfirst, hmore,
        List.append_nil]

end

/-- The calls of a trace are seen as they are made. -/
theorem calls_relay
    (b : Board ω) (r : Route) (T : Trace) :
    (b.relay r T).2.calls = T.calls := by
  induction T generalizing b with
  | nil => rfl
  | cons a rest ih =>
      cases a with
      | emit e =>
          simp only [relay, Trace.calls_append, calls_emit, ih,
            List.nil_append]
          rfl
      | call h k =>
          simp only [relay, Trace.calls_cons_call, ih]
      | _ => exact ih b

omit [Writer ω] in
/-- A place that had a leaf has what is put there. -/
theorem leaf?_put
    {b : Board ω} {place : Nat} {l : Leaf ω}
    (there : b.leaf? place = some l)
    (m : Leaf ω) :
    (b.put place m).leaf? place = some m := by
  have hplace : place < b.leaves.length :=
    (List.getElem?_eq_some_iff.mp there).1
  simp [put, leaf?, hplace]

/-- A leaf that keeps events keeps all those of a trace, in order. -/
theorem leaf?_relay_memory
    {b : Board ω} {place : Nat} {kept : List Event}
    (hleaf : b.leaf? place = some (.memory kept))
    (T : Trace) :
    (b.relay (.leaf place) T).1.leaf? place =
      some (.memory (kept ++ T.events)) := by
  induction T generalizing b kept with
  | nil => simpa [relay, Trace.events] using hleaf
  | cons a rest ih =>
      cases a with
      | emit e =>
          have hput :
              (b.emit e (.leaf place)).1 =
                b.put place (.memory (kept ++ [e])) := by
            rw [emit, deliver, hleaf]
          have hnext :
              (b.emit e (.leaf place)).1.leaf? place =
                some (.memory (kept ++ [e])) := by
            rw [hput]
            exact leaf?_put hleaf _
          have hrest := ih hnext
          rw [List.append_assoc] at hrest
          exact hrest
      | _ => exact ih hleaf

end Board

end StreamServer
