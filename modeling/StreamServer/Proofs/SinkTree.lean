import StreamServer.Proofs.Relay

/-!
# Fans within fans

A sink is a tree of fans with leaves at its ends, and one leaf can hang in it
several times.  However deep the fans are, an event comes to the leaves in the
order in which they are met from left to right, each as often as it hangs there;
so a tree does what the list of its leaves does.

A leaf that keeps events can be looked into and emptied in between.  What has
been taken out of it, and what is still in it, is what was sent to the tree,
each event as many times in a row as the leaf hangs in it.
-/

namespace StreamServer

namespace Route

/-- The deliveries that events come to, one event after the other. -/
def deliveries (r : Route) (es : List Event) : List (Nat × Event) :=
  es.flatMap fun e => r.targets.map fun i => (i, e)

end Route

namespace Board

variable {ω : Type} [Writer ω]

/-! ## Trees and lists of leaves -/

/-- Deliveries to leaves, one after the other. -/
def deliverEach (b : Board ω) : List (Nat × Event) → Board ω × Trace
  | [] => (b, [])
  | (i, e) :: rest =>
      (((b.deliver e i).1.deliverEach rest).1,
        (b.deliver e i).2 ++ ((b.deliver e i).1.deliverEach rest).2)

/-- Events sent on their way, one after the other. -/
def emitEach (b : Board ω) (r : Route) : List Event → Board ω × Trace
  | [] => (b, [])
  | e :: rest =>
      (((b.emit e r).1.emitEach r rest).1,
        (b.emit e r).2 ++ ((b.emit e r).1.emitEach r rest).2)

theorem deliverEach_append
    (b : Board ω) (xs ys : List (Nat × Event)) :
    b.deliverEach (xs ++ ys) =
      (((b.deliverEach xs).1.deliverEach ys).1,
        (b.deliverEach xs).2 ++ ((b.deliverEach xs).1.deliverEach ys).2) := by
  induction xs generalizing b with
  | nil => rfl
  | cons x rest ih =>
      obtain ⟨i, e⟩ := x
      simp only [List.cons_append, deliverEach, ih, List.append_assoc]

mutual

/-- A tree does what the list of its leaves does. -/
theorem emit_eq_deliverEach
    (b : Board ω) (e : Event) (r : Route) :
    b.emit e r = b.deliverEach (r.targets.map fun i => (i, e)) := by
  cases r with
  | leaf i => simp [emit, Route.targets, deliverEach]
  | fanout branches => exact b.emitAll_eq_deliverEach e branches

theorem emitAll_eq_deliverEach
    (b : Board ω) (e : Event) (rs : List Route) :
    b.emitAll e rs =
      b.deliverEach ((Route.targetsOfAll rs).map fun i => (i, e)) := by
  cases rs with
  | nil => rfl
  | cons r rest =>
      have hfirst := b.emit_eq_deliverEach e r
      have hmore := (b.emit e r).1.emitAll_eq_deliverEach e rest
      simp only [emitAll, Route.targetsOfAll, List.map_append,
        deliverEach_append, ← hfirst, ← hmore]

end

theorem emitEach_eq_deliverEach
    (b : Board ω) (r : Route) (es : List Event) :
    b.emitEach r es = b.deliverEach (r.deliveries es) := by
  induction es generalizing b with
  | nil => rfl
  | cons e rest ih =>
      have hnow := b.emit_eq_deliverEach e r
      have hsplit :
          r.deliveries (e :: rest) =
            (r.targets.map fun i => (i, e)) ++ r.deliveries rest := rfl
      rw [hsplit, deliverEach_append, ← hnow, ← ih]
      rfl

/-! ## What a memory keeps -/

omit [Writer ω] in
theorem leaf?_put_ne
    (b : Board ω) (l : Leaf ω)
    {i j : Nat}
    (apart : j ≠ i) :
    (b.put j l).leaf? i = b.leaf? i := by
  exact List.getElem?_set_ne apart

/-- A delivery changes no other leaf. -/
theorem leaf?_deliver_ne
    (b : Board ω) (e : Event)
    {i j : Nat}
    (apart : j ≠ i) :
    (b.deliver e j).1.leaf? i = b.leaf? i := by
  unfold deliver
  split
  · rfl
  · exact b.leaf?_put_ne _ apart
  · rfl
  · rfl
  · rfl
  · split <;> exact b.leaf?_put_ne _ apart

/-- A memory keeps the events of its own deliveries, in order. -/
theorem leaf?_deliverEach_memory
    {b : Board ω} {i : Nat} {kept : List Event}
    (hleaf : b.leaf? i = some (.memory kept))
    (ds : List (Nat × Event)) :
    (b.deliverEach ds).1.leaf? i =
      some (.memory (kept ++ (ds.filter (·.1 == i)).map (·.2))) := by
  induction ds generalizing b kept with
  | nil => simpa [deliverEach] using hleaf
  | cons d rest ih =>
      obtain ⟨j, e⟩ := d
      by_cases here : j = i
      · subst here
        have hnow :
            (b.deliver e j).1.leaf? j = some (.memory (kept ++ [e])) := by
          rw [deliver, hleaf]
          exact leaf?_put hleaf _
        have hrest := ih hnow
        rw [List.append_assoc] at hrest
        rw [List.filter_cons_of_pos (by simp)]
        exact hrest
      · have hnow : (b.deliver e j).1.leaf? i = some (.memory kept) :=
          (b.leaf?_deliver_ne e here).trans hleaf
        rw [List.filter_cons_of_neg (by simpa using here)]
        exact ih hnow

/-- Of a delivery to each leaf of a list, a leaf gets as many as it is there. -/
theorem filter_deliveries
    (is : List Nat) (i : Nat) (e : Event) :
    ((is.map fun j => (j, e)).filter (·.1 == i)).map (·.2) =
      List.replicate (is.count i) e := by
  rw [List.filter_map, List.map_map]
  show (is.filter (· == i)).map (fun _ => e) = _
  rw [List.filter_beq, List.map_replicate]

/-- A memory keeps an event as many times as it hangs in the tree. -/
theorem leaf?_emit_memory
    {b : Board ω} {i : Nat} {kept : List Event}
    (hleaf : b.leaf? i = some (.memory kept))
    (e : Event) (r : Route) :
    (b.emit e r).1.leaf? i =
      some (.memory (kept ++ List.replicate (r.targets.count i) e)) := by
  rw [emit_eq_deliverEach, leaf?_deliverEach_memory hleaf,
    filter_deliveries]

end Board

/-! ## Looking and taking in between -/

/-- What is done with a sink: an event is sent to it, or a leaf that keeps events
is looked into or emptied. -/
inductive SinkUse
  | emit (e : Event)
  | events (place : Nat)
  | take (place : Nat)
  deriving DecidableEq

namespace SinkUse

/-- Whether nothing is done but look. -/
def isLook : SinkUse → Bool
  | .events _ => true
  | _ => false

/-- The event that is sent, if one is. -/
def event? : SinkUse → Option Event
  | .emit e => some e
  | _ => none

end SinkUse

namespace Board

variable {ω : Type} [Writer ω]

/-- What a use of a sink returns, and the board after it. -/
def use (b : Board ω) (r : Route) : SinkUse → Option (List Event) × Board ω
  | .emit e => (none, (b.emit e r).1)
  | .events i => (b.events? i, b)
  | .take i =>
      match b.take? i with
      | some (taken, rest) => (some taken, rest)
      | none => (none, b)

/-- The board after uses of a sink. -/
def afterUses (b : Board ω) (r : Route) (us : List SinkUse) : Board ω :=
  us.foldl (fun b u => (b.use r u).2) b

/-- Everything that is taken out of one leaf, in order. -/
def taken (b : Board ω) (r : Route) (place : Nat) :
    List SinkUse → List Event
  | [] => []
  | u :: rest =>
      (if u = .take place then (b.use r u).1.getD [] else []) ++
        (b.use r u).2.taken r place rest

omit [Writer ω] in
theorem events?_of_memory
    {b : Board ω} {i : Nat} {kept : List Event}
    (hleaf : b.leaf? i = some (.memory kept)) :
    b.events? i = some kept := by
  rw [events?, hleaf]

theorem use_take
    {b : Board ω} {i : Nat} {kept : List Event}
    (hleaf : b.leaf? i = some (.memory kept))
    (r : Route) :
    b.use r (.take i) = (some kept, b.put i (.memory [])) := by
  simp only [use, take?, events?_of_memory hleaf, Option.map_some]

/-- Taking from one leaf leaves the others as they are. -/
theorem leaf?_use_take_ne
    (b : Board ω) (r : Route)
    {i j : Nat}
    (apart : j ≠ i) :
    (b.use r (.take j)).2.leaf? i = b.leaf? i := by
  simp only [use, take?]
  cases b.events? j with
  | none => rfl
  | some kept => exact b.leaf?_put_ne _ apart

/-- What is taken out of a memory in one use, and what is in it then, is what was
in it and what is sent to it. -/
theorem use_balance
    {b : Board ω} {place : Nat} {kept : List Event}
    (hleaf : b.leaf? place = some (.memory kept))
    (r : Route) (u : SinkUse) :
    ∃ left,
      (b.use r u).2.leaf? place = some (.memory left) ∧
      (if u = .take place then (b.use r u).1.getD [] else []) ++ left =
        kept ++ u.event?.toList.flatMap
          (List.replicate (r.targets.count place)) := by
  cases u with
  | emit e =>
      refine ⟨_, leaf?_emit_memory hleaf e r, ?_⟩
      simp [SinkUse.event?]
  | events i => exact ⟨kept, hleaf, by simp [SinkUse.event?]⟩
  | take i =>
      by_cases here : i = place
      · subst here
        rw [use_take hleaf]
        exact ⟨[], leaf?_put hleaf _, by simp [SinkUse.event?]⟩
      · refine ⟨kept, (b.leaf?_use_take_ne r here).trans hleaf, ?_⟩
        simp [SinkUse.event?, here]

/-- Nothing is lost between a memory and those who take from it. -/
theorem taken_append_left
    {b : Board ω} {place : Nat} {kept : List Event}
    (hleaf : b.leaf? place = some (.memory kept))
    (r : Route) (us : List SinkUse) :
    ∃ left,
      (b.afterUses r us).events? place = some left ∧
      b.taken r place us ++ left =
        kept ++ (us.filterMap SinkUse.event?).flatMap
          (List.replicate (r.targets.count place)) := by
  induction us generalizing b kept with
  | nil => exact ⟨kept, events?_of_memory hleaf, by simp [taken]⟩
  | cons u rest ih =>
      obtain ⟨between, hnext, hnow⟩ := use_balance hleaf r u
      obtain ⟨left, hlast, hrest⟩ := ih hnext
      refine ⟨left, hlast, ?_⟩
      rw [taken, List.append_assoc, hrest, ← List.append_assoc, hnow,
        List.append_assoc, ← List.flatMap_append]
      congr 2
      cases hu : u.event? <;> simp [hu]

/-- Without the looks everything else is the same. -/
theorem uses_without_looks
    (b : Board ω) (r : Route) (us : List SinkUse) :
    b.afterUses r (us.filter (! ·.isLook)) = b.afterUses r us ∧
      ∀ place,
        b.taken r place (us.filter (! ·.isLook)) = b.taken r place us := by
  induction us generalizing b with
  | nil => exact ⟨rfl, fun _ => rfl⟩
  | cons u rest ih =>
      cases hlook : u.isLook with
      | true =>
          obtain ⟨i, rfl⟩ : ∃ i, u = .events i := by
            cases u with
            | events i => exact ⟨i, rfl⟩
            | _ => cases hlook
          rw [List.filter_cons_of_neg (by simp [hlook])]
          exact ih b
      | false =>
          obtain ⟨hboard, htaken⟩ := ih (b.use r u).2
          rw [List.filter_cons_of_pos (by simp [hlook])]
          refine ⟨hboard, ?_⟩
          intro place
          rw [taken, taken, htaken]

/--
**A tree of fans does what the list of its leaves does**, for any board, any tree
and any events: fans of any depth and width, empty ones too, and leaves that hang
in several places.

* The board becomes the same, and the same is seen in the same order, as if each
  event in turn had been delivered to the leaves one by one, from left to right.
* A leaf that keeps events can be looked into and emptied at any time, and so can
  others.  All that was ever taken out of it, and then what is still seen in it,
  is what was in it and then what was sent, each event as many times in a row as
  the leaf hangs in the tree.
* Looking changes nothing: without the looks the board becomes the same, and the
  same is taken.
-/
theorem tree_does_as_list
    (b : Board ω) (r : Route) :
    (∀ es,
      b.emitEach r es =
        b.deliverEach
          (es.flatMap fun e => r.targets.map fun i => (i, e))) ∧
    (∀ place kept,
      b.leaf? place = some (.memory kept) →
      ∀ us,
        ∃ left,
          (b.afterUses r us).events? place = some left ∧
          b.taken r place us ++ left =
            kept ++ (us.filterMap SinkUse.event?).flatMap
              (List.replicate (r.targets.count place))) ∧
    (∀ us,
      b.afterUses r (us.filter (! ·.isLook)) = b.afterUses r us ∧
      ∀ place,
        b.taken r place (us.filter (! ·.isLook)) =
          b.taken r place us) := by
  exact ⟨b.emitEach_eq_deliverEach r,
    fun _ _ hleaf us => taken_append_left hleaf r us,
    b.uses_without_looks r⟩

/-- A memory that hangs three times in a tree, before, in and after an empty fan,
with looks and takes between two events. -/
theorem tree_does_as_list_three_times :
    let b : Board LimitedWriter :=
      { leaves := [.journal, .memory [], .metrics] }
    let r : Route :=
      .fanout
        [.leaf 1, .fanout [.fanout [], .leaf 0, .fanout [.leaf 1]],
          .leaf 2, .leaf 1]
    let us : List SinkUse :=
      [.events 1, .emit (.closed 1), .events 1, .take 1, .take 1,
        .emit (.closed 2), .take 0, .events 1]
    b.leaf? 1 = some (.memory []) ∧
    r.targets = [1, 0, 1, 2, 1] ∧
    b.taken r 1 us = [.closed 1, .closed 1, .closed 1] ∧
    ∃ left,
      (b.afterUses r us).events? 1 = some left ∧
      b.taken r 1 us ++ left =
        [.closed 1, .closed 1, .closed 1,
          .closed 2, .closed 2, .closed 2] := by
  intro b r us
  have hleaf : b.leaf? 1 = some (.memory []) := rfl
  obtain ⟨-, hkept, -⟩ := b.tree_does_as_list r
  exact ⟨hleaf, by decide, by decide, hkept 1 [] hleaf us⟩

end Board

end StreamServer
