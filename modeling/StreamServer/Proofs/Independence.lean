import Mathlib
import StreamServer.Proofs.LineRun
import StreamServer.Proofs.Relay
import StreamServer.Transport.Script

/-!
# The independence of connections

The steps of a session are told apart by the lines they are made on.  A step
reads and changes its own line alone, so what a line answers, does and becomes
is the same whatever the others do in between: it is what it would be if they
did nothing.  The sink is the one thing that all lines share, and nothing comes
back from it.  It gets the events of each line in that line's own order.
-/

namespace StreamServer

namespace Board

variable {ω : Type} [Writer ω]

/-- A board after events have gone their way, one after the other. -/
def feed (b : Board ω) (r : Route) (es : List Event) : Board ω :=
  es.foldl (fun b e => (b.emit e r).1) b

theorem feed_append
    (b : Board ω) (r : Route) (es fs : List Event) :
    b.feed r (es ++ fs) = (b.feed r es).feed r fs := by
  exact List.foldl_append

/-- A board gets the events of a trace, and nothing else. -/
theorem relay_eq_feed
    (b : Board ω) (r : Route) (T : Trace) :
    (b.relay r T).1 = b.feed r T.events := by
  induction T generalizing b with
  | nil => rfl
  | cons a rest ih =>
      cases a with
      | emit e => exact ih (b.emit e r).1
      | _ => exact ih b

/-- A leaf that keeps events keeps all that it gets, in order. -/
theorem leaf?_feed_memory
    {b : Board ω} {place : Nat} {kept : List Event}
    (hleaf : b.leaf? place = some (.memory kept))
    (es : List Event) :
    (b.feed (.leaf place) es).leaf? place =
      some (.memory (kept ++ es)) := by
  have hevents : Trace.events (es.map Act.emit) = es := by
    simp [Trace.events, List.filterMap_map]
  have hrelay := leaf?_relay_memory hleaf (es.map Act.emit)
  rwa [relay_eq_feed, hevents] at hrelay

end Board

namespace Line

variable {σ : Type} [Transport σ]

/-- A step where there may be a line. -/
def stepAt (l : Option (Line σ)) (a : LineStep) :
    Answer × Option (Line σ) × Trace :=
  match l with
  | none => (.gone, none, [])
  | some l => ((l.step a).1, some (l.step a).2.1, (l.step a).2.2)

/-- A run where there may be a line. -/
def runAt (l : Option (Line σ)) (steps : List LineStep) :
    Option (Line σ) × Trace :=
  match l with
  | none => (none, [])
  | some l => (some (l.run steps).1, (l.run steps).2)

theorem runAt_nil
    (l : Option (Line σ)) :
    runAt l [] = (l, []) := by
  cases l <;> rfl

theorem runAt_cons
    (l : Option (Line σ)) (a : LineStep) (rest : List LineStep) :
    runAt l (a :: rest) =
      ((runAt (stepAt l a).2.1 rest).1,
        (stepAt l a).2.2 ++ (runAt (stepAt l a).2.1 rest).2) := by
  cases l <;> rfl

end Line

namespace Session

variable {σ ω ω' : Type} [Transport σ] [Writer ω] [Writer ω']

/-- What is told of a step of a session: the line it was made on, what it
answered, what it did, and the line that it left. -/
structure Entry (σ : Type) where
  line : Nat
  answer : SessionAnswer
  done : Trace
  left : Option (Line σ)

/-- Steps on lines, as steps of a session. -/
def steps (xs : List (Nat × LineStep)) : List (SessionStep σ) :=
  xs.map fun x => .on x.1 x.2

/-- The steps on one line. -/
def own (i : Nat) (xs : List (Nat × LineStep)) : List LineStep :=
  (xs.filter (·.1 = i)).map (·.2)

/-- What is told of each step of a run. -/
def entries (s : Session σ ω) : List (Nat × LineStep) → List (Entry σ)
  | [] => []
  | (i, a) :: rest =>
      { line := i
        answer := (s.step (.on i a)).1
        done := (advance s.lines (.on i a)).2.2
        left := (s.step (.on i a)).2.1.lines[i]? } ::
      (s.step (.on i a)).2.1.entries rest

/-- The events that reach the sink in a run, each with the line that it is
from. -/
def received (s : Session σ ω) (xs : List (Nat × LineStep)) :
    List (Nat × Event) :=
  (s.entries xs).flatMap fun e => e.done.events.map fun x => (e.line, x)

/-! ## One step -/

section Step

variable (s : Session σ ω) {i j : Nat} (a : LineStep)

omit [Writer ω] in
theorem done_on :
    (advance s.lines (.on i a)).2.2 = (Line.stepAt s.lines[i]? a).2.2 := by
  simp only [advance]
  cases s.lines[i]? <;> rfl

theorem answer_on :
    (s.step (.on i a)).1 = .line (Line.stepAt s.lines[i]? a).1 := by
  simp only [step, advance]
  cases s.lines[i]? <;> rfl

theorem line_on :
    (s.step (.on i a)).2.1.lines[i]? =
      (Line.stepAt s.lines[i]? a).2.1 := by
  simp only [step, advance]
  cases there : s.lines[i]? with
  | none => exact there
  | some l =>
      have hlength : i < s.lines.length :=
        (List.getElem?_eq_some_iff.mp there).1
      exact List.getElem?_set_self hlength

/-- A step on a line changes no other. -/
theorem line_on_ne
    (apart : i ≠ j) :
    (s.step (.on i a)).2.1.lines[j]? = s.lines[j]? := by
  simp only [step, advance]
  cases s.lines[i]? with
  | none => rfl
  | some l => exact List.getElem?_set_ne apart

end Step

/-! ## Runs -/

section Run

variable {s : Session σ ω} {t : Session σ ω'} {i : Nat}

/-- What is told of a line depends on that line and on its own steps alone. -/
theorem filter_entries
    (alike : s.lines[i]? = t.lines[i]?)
    (xs : List (Nat × LineStep)) :
    (s.entries xs).filter (·.line = i) =
      t.entries (xs.filter (·.1 = i)) := by
  induction xs generalizing s t with
  | nil => rfl
  | cons x rest ih =>
      obtain ⟨j, a⟩ := x
      by_cases hj : j = i
      · subst hj
        have hnext :
            (s.step (.on j a)).2.1.lines[j]? =
              (t.step (.on j a)).2.1.lines[j]? := by
          rw [line_on, line_on, alike]
        rw [List.filter_cons_of_pos (by simp)]
        simp only [entries]
        rw [List.filter_cons_of_pos (by simp), ih hnext, hnext,
          answer_on, answer_on, done_on, done_on, alike]
      · have hnext := (s.line_on_ne a hj).trans alike
        rw [List.filter_cons_of_neg (by simpa using hj), ← ih hnext]
        simp only [entries]
        rw [List.filter_cons_of_neg (by simpa using hj)]

/-- A line becomes what its own steps make of it, and does what they do. -/
theorem own_run
    (s : Session σ ω) (xs : List (Nat × LineStep)) (i : Nat) :
    (s.run (steps xs)).2.1.lines[i]? =
      (Line.runAt s.lines[i]? (own i xs)).1 ∧
    ((s.entries xs).filter (·.line = i)).flatMap (·.done) =
      (Line.runAt s.lines[i]? (own i xs)).2 := by
  induction xs generalizing s with
  | nil =>
      rw [show own i [] = [] from rfl, Line.runAt_nil]
      exact ⟨rfl, rfl⟩
  | cons x rest ih =>
      obtain ⟨j, a⟩ := x
      obtain ⟨hline, hdone⟩ := ih (s.step (.on j a)).2.1
      by_cases hj : j = i
      · subst hj
        have hown : own j ((j, a) :: rest) = a :: own j rest := by
          simp [own]
        rw [line_on] at hline hdone
        rw [hown, Line.runAt_cons]
        refine ⟨hline, ?_⟩
        simp only [entries]
        rw [List.filter_cons_of_pos (by simp), List.flatMap_cons, hdone,
          done_on]
      · have hown : own i ((j, a) :: rest) = own i rest := by
          simp [own, hj]
        rw [s.line_on_ne a hj] at hline hdone
        rw [hown]
        refine ⟨hline, ?_⟩
        simp only [entries]
        rw [List.filter_cons_of_neg (by simpa using hj)]
        exact hdone

/-- What is told of the steps is what they answer, and the calls that are
seen. -/
theorem run_eq_entries
    (xs : List (Nat × LineStep)) :
    (s.run (steps xs)).1 = (s.entries xs).map (·.answer) ∧
    (s.run (steps xs)).2.2.map Trace.calls =
      (s.entries xs).map (·.done.calls) := by
  induction xs generalizing s with
  | nil => exact ⟨rfl, rfl⟩
  | cons x rest ih =>
      obtain ⟨i, a⟩ := x
      obtain ⟨hanswers, hcalls⟩ := @ih (s.step (.on i a)).2.1
      constructor
      · exact congrArg (_ :: ·) hanswers
      · simp only [entries, List.map_cons, ← hcalls]
        exact congrArg (· :: _) (Board.calls_relay _ _ _)

/-- The sink gets what the lines emit. -/
theorem board_run
    (xs : List (Nat × LineStep)) :
    (s.run (steps xs)).2.1.board =
      s.board.feed s.route ((s.received xs).map (·.2)) := by
  induction xs generalizing s with
  | nil => rfl
  | cons x rest ih =>
      obtain ⟨i, a⟩ := x
      have hrest := @ih (s.step (.on i a)).2.1
      have hnow : (s.step (.on i a)).2.1.board =
          s.board.feed s.route (advance s.lines (.on i a)).2.2.events :=
        Board.relay_eq_feed _ _ _
      have hsplit : (s.received ((i, a) :: rest)).map (·.2) =
          (advance s.lines (.on i a)).2.2.events ++
            ((s.step (.on i a)).2.1.received rest).map (·.2) := by
        simp [received, entries, Function.comp_def]
      rw [hsplit, Board.feed_append, ← hnow]
      exact hrest

/-- What the sink gets from one line is what the line emits. -/
theorem received_own
    (s : Session σ ω) (xs : List (Nat × LineStep)) (i : Nat) :
    ((s.received xs).filter (·.1 = i)).map (·.2) =
      (Line.runAt s.lines[i]? (own i xs)).2.events := by
  rw [← (s.own_run xs i).2, received]
  induction s.entries xs with
  | nil => rfl
  | cons e rest ih =>
      rw [List.flatMap_cons, List.filter_append, List.map_append, ih]
      by_cases he : e.line = i
      · rw [List.filter_cons_of_pos (by simpa using he),
          List.flatMap_cons, Trace.events_append]
        congr 1
        simp [List.filter_map, he, Function.comp_def]
      · rw [List.filter_cons_of_neg (by simpa using he)]
        simp [List.filter_map, he, Function.comp_def]

end Run

/--
**Connections are independent**, for any number of lines over any transports with
one sink, and any two orders of steps on them that keep the order of the steps on
each line: those of its connection and those of its interrupters, also of the ones
that outlive it.

* The answers of a run, and the calls that are seen of it, are those told of its
  steps.
* What is told of a line is the same in both: what each step on it answered, what
  it called, emitted and logged, and the line that it left.  It is what would be
  told if the other lines made no step.
* In the end each line is what its own steps make of it.
* The sink gets the events that the lines emit, in the order of the run, and
  those of each line are the ones that its own steps emit, in that line's order.
  A leaf that keeps events keeps just them.
-/
theorem connections_independent
    (s : Session σ ω) {xs ys : List (Nat × LineStep)}
    (same : ∀ i, xs.filter (·.1 = i) = ys.filter (·.1 = i)) :
    let first := s.run (steps xs)
    let second := s.run (steps ys)
    (first.1 = (s.entries xs).map (·.answer) ∧
      first.2.2.map Trace.calls = (s.entries xs).map (·.done.calls)) ∧
    (∀ i,
      (s.entries xs).filter (·.line = i) =
          (s.entries ys).filter (·.line = i) ∧
      (s.entries xs).filter (·.line = i) =
          s.entries (xs.filter (·.1 = i))) ∧
    first.2.1.lines = second.2.1.lines ∧
    (∀ i,
      first.2.1.lines[i]? = (Line.runAt s.lines[i]? (own i xs)).1) ∧
    first.2.1.board =
      s.board.feed s.route ((s.received xs).map (·.2)) ∧
    (∀ i,
      ((s.received xs).filter (·.1 = i)).map (·.2) =
        (Line.runAt s.lines[i]? (own i xs)).2.events) ∧
    (∀ place kept,
      s.route = .leaf place →
      s.board.leaf? place = some (.memory kept) →
        first.2.1.board.leaf? place =
          some (.memory (kept ++ (s.received xs).map (·.2)))) := by
  intro first second
  refine ⟨s.run_eq_entries xs, ?told, ?lines, fun i => (s.own_run xs i).1,
    s.board_run xs, s.received_own xs, ?kept⟩
  case told =>
    intro i
    have hxs := filter_entries (rfl : s.lines[i]? = s.lines[i]?) xs
    have hys := filter_entries (rfl : s.lines[i]? = s.lines[i]?) ys
    exact ⟨hxs.trans ((congrArg s.entries (same i)).trans hys.symm), hxs⟩
  case lines =>
    refine List.ext_getElem? ?_
    intro i
    rw [(s.own_run xs i).1, (s.own_run ys i).1, own, own, same i]
  case kept =>
    intro place kept hroute hleaf
    rw [s.board_run xs, hroute]
    exact Board.leaf?_feed_memory hleaf _

/-- An interrupter that outlives its connection, and a connection that reads in
between or before. -/
theorem connections_independent_outlived :
    let s : Session Script LimitedWriter :=
      { lines :=
          [(Line.open 0 {} { descriptor := 3, peer := .ok "a" }).2.1,
            (Line.open 1 {}
              { descriptor := 4
                peer := .ok "b"
                reads := [.chunk [7, 8] none] }).2.1]
        board := { leaves := [.memory []] }
        route := .leaf 0 }
    let xs : List (Nat × LineStep) :=
      [(0, .write [1]), (0, .interrupter), (0, .drop), (1, .read 4),
        (0, .interrupt 0), (1, .close)]
    let ys : List (Nat × LineStep) :=
      [(1, .read 4), (1, .close), (0, .write [1]), (0, .interrupter),
        (0, .drop), (0, .interrupt 0)]
    (∀ i, xs.filter (·.1 = i) = ys.filter (·.1 = i)) ∧
    (s.received xs).map (·.1) = [0, 1, 1] ∧
    (s.received ys).map (·.1) = [1, 1, 0] ∧
    (s.run (steps xs)).2.1.lines = (s.run (steps ys)).2.1.lines ∧
    (∀ i,
      (s.entries xs).filter (·.line = i) =
        (s.entries ys).filter (·.line = i)) ∧
    (s.run (steps ys)).2.1.board.leaf? 0 =
      some (.memory ((s.received ys).map (·.2))) := by
  intro s xs ys
  have same : ∀ i, xs.filter (·.1 = i) = ys.filter (·.1 = i) := by
    rintro (_ | _ | i)
    · rfl
    · rfl
    · simp [xs, ys]
  obtain ⟨-, htold, hlines, -⟩ := s.connections_independent same
  obtain ⟨-, -, -, -, -, -, hkept⟩ :=
    s.connections_independent fun i => (same i).symm
  exact ⟨same, by cbv, by cbv, hlines, fun i => (htold i).1,
    hkept 0 [] rfl rfl⟩

end Session

end StreamServer
