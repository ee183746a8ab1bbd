import Mathlib
import StreamServer.Proofs.Independence
import StreamServer.Proofs.SinkTree

/-!
# What is counted

A counter holds the sum of its increments in sixty-four bits, and an event has a
weight in each counter.  So the totals over any events are the sums of their
weights, modulo the size of a word, and the order of the events does not matter.

A sink in whose tree one leaf counts, and hangs once, counts every event that it
is sent once.
-/

namespace StreamServer

/-- What an event adds to a counter. -/
def Metric.weight : Metric → Event → Nat
  | .bytes d, .transfer d' _ n => if d' = d then n else 0
  | .transfers d, .transfer d' _ _ => if d' = d then 1 else 0
  | .closed, .closed _ => 1
  | .closeFailures, .closeFailed .. => 1
  | _, _ => 0

namespace Counters

/-- The value of a counter, which is zero before it is touched. -/
def total (c : Counters) (m : Metric) : UInt64 :=
  (c.total? m).getD 0

theorem total_eq_foldr
    (c : Counters) (m : Metric) :
    c.total m = (c.increments m).foldr (· + ·) 0 := by
  unfold total total?
  cases c.increments m <;> rfl

theorem increments_append
    (c d : Counters) (m : Metric) :
    increments (c ++ d) m = c.increments m ++ d.increments m := by
  simp [increments]

theorem total_append
    (c d : Counters) (m : Metric) :
    total (c ++ d) m = c.total m + d.total m := by
  rw [total_eq_foldr, total_eq_foldr, total_eq_foldr, increments_append]
  induction c.increments m with
  | nil => simp
  | cons n rest ih =>
      rw [List.cons_append, List.foldr_cons, List.foldr_cons, ih,
        UInt64.add_assoc]

/-- The increments of an event are its weights. -/
theorem total_ofEvent
    (e : Event) (m : Metric) :
    total (ofEvent e) m = UInt64.ofNat (m.weight e) := by
  rw [total_eq_foldr]
  cases e with
  | transfer d peer n =>
      cases d with
      | inbound =>
          rcases m with (_ | _) | (_ | _) | _ | _ <;>
            simp [ofEvent, increments, Metric.weight]
      | outbound =>
          rcases m with (_ | _) | (_ | _) | _ | _ <;>
            simp [ofEvent, increments, Metric.weight]
  | closed id =>
      rcases m with _ | _ | _ | _ <;>
        simp [ofEvent, increments, Metric.weight]
  | closeFailed id reason =>
      rcases m with _ | _ | _ | _ <;>
        simp [ofEvent, increments, Metric.weight]

/-- The counters after events, one after the other. -/
def countAll (c : Counters) (es : List Event) : Counters :=
  es.foldl count c

theorem countAll_eq_flatMap
    (c : Counters) (es : List Event) :
    c.countAll es = es.reverse.flatMap ofEvent ++ c := by
  induction es generalizing c with
  | nil => rfl
  | cons e rest ih =>
      rw [countAll, List.foldl_cons, ← countAll, ih, List.reverse_cons,
        List.flatMap_append, List.append_assoc, List.flatMap_singleton]
      rfl

/-- Totals grow by the weights of the events. -/
theorem total_countAll
    (c : Counters) (es : List Event) (m : Metric) :
    (c.countAll es).total m =
      c.total m + UInt64.ofNat (es.map m.weight).sum := by
  induction es generalizing c with
  | nil => simp [countAll]
  | cons e rest ih =>
      have hnow : (c.count e).total m =
          UInt64.ofNat (m.weight e) + c.total m := by
        rw [count, total_append, total_ofEvent]
      rw [countAll, List.foldl_cons, ← countAll, ih, hnow, List.map_cons,
        List.sum_cons, UInt64.ofNat_add, UInt64.add_comm _ (c.total m),
        UInt64.add_assoc]

theorem total?_perm
    {c d : Counters}
    (perm : c.Perm d)
    (m : Metric) :
    c.total? m = d.total? m := by
  have hincrements : (c.increments m).Perm (d.increments m) :=
    (perm.filter _).map _
  have hsum : (c.increments m).foldr (· + ·) 0 =
      (d.increments m).foldr (· + ·) 0 := by
    refine hincrements.foldr_eq' ?_ 0
    intro x _ y _ z
    rw [← UInt64.add_assoc, UInt64.add_comm y x, UInt64.add_assoc]
  unfold total?
  cases hc : c.increments m with
  | nil =>
      rw [hc] at hincrements
      rw [← hincrements.nil_eq]
  | cons n rest =>
      cases hd : d.increments m with
      | nil =>
          rw [hc, hd] at hincrements
          exact absurd hincrements.eq_nil (List.cons_ne_nil n rest)
      | cons k others =>
          rw [hc, hd] at hsum
          exact congrArg some hsum

/-- The order of the events does not matter. -/
theorem totals_countAll_perm
    (c : Counters)
    {es fs : List Event}
    (perm : es.Perm fs) :
    (c.countAll es).totals = (c.countAll fs).totals := by
  have hcounters : (c.countAll es).Perm (c.countAll fs) := by
    rw [countAll_eq_flatMap, countAll_eq_flatMap]
    have hreverse : es.reverse.Perm fs.reverse :=
      (es.reverse_perm.trans perm).trans fs.reverse_perm.symm
    exact (hreverse.flatMap_right ofEvent).append_right c
  unfold totals
  simp only [total?_perm hcounters]

end Counters

/-! ## Sinks that count -/

namespace Board

variable {ω : Type}

/-- Whether the leaf at a place counts. -/
def counts (b : Board ω) (i : Nat) : Bool :=
  match b.leaf? i with
  | some .metrics => true
  | _ => false

/-- Of all leaves in a tree, one counts, and it hangs there once. -/
def CountsOnce (b : Board ω) (r : Route) : Prop :=
  r.targets.countP b.counts = 1

theorem counts_put
    {b : Board ω} {l l' : Leaf ω} {i : Nat}
    (there : b.leaf? i = some l)
    (alike : l = .metrics ↔ l' = .metrics)
    (j : Nat) :
    (b.put i l').counts j = b.counts j := by
  by_cases here : i = j
  · subst here
    unfold counts
    rw [leaf?_put there, there]
    cases l <;> cases l' <;> simp_all
  · unfold counts
    rw [b.leaf?_put_ne _ here]

variable [Writer ω]

/-- A delivery makes no leaf count, nor stop counting. -/
theorem counts_deliver
    (b : Board ω) (e : Event) (i j : Nat) :
    (b.deliver e i).1.counts j = b.counts j := by
  unfold deliver
  split
  · rfl
  · next kept there => exact counts_put there (by simp) j
  · rfl
  · rfl
  · rfl
  · next w there =>
      split <;> exact counts_put there (by simp) j

theorem counters_deliver
    (b : Board ω) (e : Event) (i : Nat) :
    (b.deliver e i).1.counters =
      if b.counts i then b.counters.count e else b.counters := by
  unfold deliver counts
  split <;> simp_all [put]
  split <;> rfl

/-- Of a delivery to each leaf of a list, each that counts counts one. -/
theorem counters_deliverEach
    (b : Board ω) (e : Event) (is : List Nat) :
    (b.deliverEach (is.map fun i => (i, e))).1.counters =
      b.counters.countAll (List.replicate (is.countP b.counts) e) := by
  induction is generalizing b with
  | nil => rfl
  | cons i rest ih =>
      have hsame : (b.deliver e i).1.counts = b.counts :=
        funext (b.counts_deliver e i)
      rw [List.map_cons, deliverEach, ih, hsame, counters_deliver,
        List.countP_cons]
      cases b.counts i with
      | true =>
          simp only [if_true, List.replicate_succ]
          rfl
      | false => rfl

theorem counts_deliverEach
    (b : Board ω) (ds : List (Nat × Event)) :
    (b.deliverEach ds).1.counts = b.counts := by
  induction ds generalizing b with
  | nil => rfl
  | cons d rest ih => exact (ih _).trans (funext (b.counts_deliver d.2 d.1))

/-- A sink that counts once counts each event that it is sent. -/
theorem counters_feed
    {b : Board ω} {r : Route}
    (once : b.CountsOnce r)
    (es : List Event) :
    (b.feed r es).counters = b.counters.countAll es := by
  induction es generalizing b with
  | nil => rfl
  | cons e rest ih =>
      have hnow : (b.emit e r).1.counters = b.counters.count e := by
        rw [emit_eq_deliverEach, counters_deliverEach,
          show r.targets.countP b.counts = 1 from once]
        rfl
      have hnext : (b.emit e r).1.CountsOnce r := by
        rw [CountsOnce, emit_eq_deliverEach, counts_deliverEach]
        exact once
      rw [feed, List.foldl_cons, ← feed, ih hnext, hnow]
      rfl

end Board

end StreamServer
