import StreamServer.Proofs.Independence

/-!
# The choice of the sink

Nothing comes back from a sink, so a session is the same with any sink: what its
steps answer, the calls they make, and the lines they leave.  The sink is handed
the same events whatever it does with them.

Which events a sink is handed can be watched.  A memory put before a sink, in a
fan with it, keeps the events and changes nothing else: the leaves behind it,
the counters and all that is seen stay what they are without it.
-/

namespace StreamServer

/-! ## Watching a sink -/

namespace Route

mutual

/-- The way of events when all leaves are one place further. -/
def shifted : Route → Route
  | .leaf i => .leaf (i + 1)
  | .fanout branches => .fanout (shiftedAll branches)

/-- Several ways when all leaves are one place further. -/
def shiftedAll : List Route → List Route
  | [] => []
  | r :: rest => r.shifted :: shiftedAll rest

end

/-- A fan of the first leaf and a sink whose leaves are one place further. -/
def watched (r : Route) : Route :=
  .fanout [.leaf 0, r.shifted]

end Route

namespace Board

variable {ω : Type}

/-- A board with one more leaf before all others. -/
def behind (b : Board ω) (l : Leaf ω) : Board ω :=
  { b with leaves := l :: b.leaves }

theorem leaf?_behind
    (b : Board ω) (l : Leaf ω) (i : Nat) :
    (b.behind l).leaf? (i + 1) = b.leaf? i := by
  exact List.getElem?_cons_succ

theorem put_behind
    (b : Board ω) (l m : Leaf ω) (i : Nat) :
    (b.behind l).put (i + 1) m = (b.put i m).behind l := by
  rfl

variable [Writer ω]

theorem deliver_behind
    (b : Board ω) (l : Leaf ω) (e : Event) (i : Nat) :
    (b.behind l).deliver e (i + 1) =
      ((b.deliver e i).1.behind l, (b.deliver e i).2) := by
  simp only [deliver, leaf?_behind, put_behind]
  split
  · rfl
  · rfl
  · rfl
  · rfl
  · rfl
  · split <;> rfl

mutual

/-- A leaf that no event is sent to changes nothing. -/
theorem emit_behind
    (b : Board ω) (l : Leaf ω) (e : Event) (r : Route) :
    (b.behind l).emit e r.shifted =
      ((b.emit e r).1.behind l, (b.emit e r).2) := by
  cases r with
  | leaf i => exact b.deliver_behind l e i
  | fanout branches => exact b.emitAll_behind l e branches

theorem emitAll_behind
    (b : Board ω) (l : Leaf ω) (e : Event) (rs : List Route) :
    (b.behind l).emitAll e (Route.shiftedAll rs) =
      ((b.emitAll e rs).1.behind l, (b.emitAll e rs).2) := by
  cases rs with
  | nil => rfl
  | cons r rest =>
      have hfirst := b.emit_behind l e r
      have hmore := (b.emit e r).1.emitAll_behind l e rest
      simp only [Route.shiftedAll, emitAll, hfirst, hmore]

end

/-- A memory before a sink keeps the event, and nothing else is changed. -/
theorem emit_watched
    (b : Board ω) (kept : List Event) (e : Event) (r : Route) :
    (b.behind (.memory kept)).emit e r.watched =
      ((b.emit e r).1.behind (.memory (kept ++ [e])), (b.emit e r).2) := by
  have hmemory :
      (b.behind (.memory kept)).emit e (.leaf 0) =
        (b.behind (.memory (kept ++ [e])), []) := by
    rfl
  have hsink := b.emit_behind (.memory (kept ++ [e])) e r
  simp only [Route.watched, emit, emitAll] at hmemory hsink ⊢
  simp only [hmemory, hsink, List.append_nil, List.nil_append]

theorem relay_watched
    (b : Board ω) (kept : List Event) (r : Route) (T : Trace) :
    (b.behind (.memory kept)).relay r.watched T =
      ((b.relay r T).1.behind (.memory (kept ++ T.events)),
        (b.relay r T).2) := by
  induction T generalizing b kept with
  | nil => simp [relay, Trace.events]
  | cons a rest ih =>
      cases a with
      | emit e =>
          have hevents :
              Trace.events (.emit e :: rest) = e :: Trace.events rest := rfl
          simp only [relay, emit_watched, ih, hevents, List.append_assoc,
            List.singleton_append]
      | call h k => simp only [relay, ih]; rfl
      | log record => simp only [relay, ih]; rfl
      | deregister id => simp only [relay, ih]; rfl
      | returnPermit => simp only [relay, ih]; rfl

end Board

/-! ## Sessions with any sink -/

namespace Session

variable {σ ω ω' : Type} [Transport σ]

/-- The events that the steps of a run hand to the sink, given the lines. -/
def handed (lines : List (Line σ)) : List (SessionStep σ) → List Event
  | [] => []
  | a :: rest =>
      (advance lines a).2.2.events ++ handed (advance lines a).2.1 rest

/-- A session with a memory before its sink. -/
def watched (s : Session σ ω) (kept : List Event) : Session σ ω :=
  { s with
    board := s.board.behind (.memory kept)
    route := s.route.watched }

variable [Writer ω] [Writer ω']

/-- What a step answers, and the calls that are seen of it, come from the lines
alone. -/
theorem step_eq
    (s : Session σ ω) (a : SessionStep σ) :
    (s.step a).1 = (advance s.lines a).1 ∧
      (s.step a).2.1.lines = (advance s.lines a).2.1 ∧
      (s.step a).2.1.route = s.route ∧
      (s.step a).2.1.board =
        s.board.feed s.route (advance s.lines a).2.2.events ∧
      (s.step a).2.2.calls = (advance s.lines a).2.2.calls := by
  exact ⟨rfl, rfl, rfl, Board.relay_eq_feed _ _ _, Board.calls_relay _ _ _⟩

theorem step_watched
    (s : Session σ ω) (kept : List Event) (a : SessionStep σ) :
    (s.watched kept).step a =
      ((s.step a).1,
        (s.step a).2.1.watched
          (kept ++ (advance s.lines a).2.2.events),
        (s.step a).2.2) := by
  simp only [step, watched, Board.relay_watched]

/-- A memory before the sink keeps what is handed, and the run is the same. -/
theorem run_watched
    (s : Session σ ω) (kept : List Event) (xs : List (SessionStep σ)) :
    (s.watched kept).run xs =
      ((s.run xs).1,
        (s.run xs).2.1.watched (kept ++ handed s.lines xs),
        (s.run xs).2.2) := by
  induction xs generalizing s kept with
  | nil => simp [run, handed]
  | cons a rest ih =>
      have hstep := s.step_watched kept a
      have hlines := (s.step_eq a).2.1
      have hrest := ih (s.step a).2.1 (kept ++ (advance s.lines a).2.2.events)
      simp only [run, hstep, hrest, hlines, handed, List.append_assoc]

/-- A sink becomes what the events handed to it make of it. -/
theorem board_run_eq_feed
    (s : Session σ ω) (xs : List (SessionStep σ)) :
    (s.run xs).2.1.board = s.board.feed s.route (handed s.lines xs) := by
  induction xs generalizing s with
  | nil => rfl
  | cons a rest ih =>
      obtain ⟨-, hlines, hroute, hboard, -⟩ := s.step_eq a
      have hrest := ih (s.step a).2.1
      rw [hlines, hroute, hboard, ← Board.feed_append] at hrest
      exact hrest

/-- Two sessions with the same lines go the same way. -/
theorem run_alike
    {s : Session σ ω} {t : Session σ ω'}
    (alike : s.lines = t.lines)
    (xs : List (SessionStep σ)) :
    (s.run xs).1 = (t.run xs).1 ∧
      (s.run xs).2.1.lines = (t.run xs).2.1.lines ∧
      (s.run xs).2.2.map Trace.calls = (t.run xs).2.2.map Trace.calls := by
  induction xs generalizing s t with
  | nil => exact ⟨rfl, alike, rfl⟩
  | cons a rest ih =>
      obtain ⟨hanswer, hlines, -, -, hcalls⟩ := s.step_eq a
      obtain ⟨hanswer', hlines', -, -, hcalls'⟩ := t.step_eq a
      rw [alike] at hanswer hlines hcalls
      obtain ⟨hanswers, hlast, hmore⟩ :=
        ih (hlines.trans hlines'.symm)
      simp only [run, List.map_cons, hanswers, hmore,
        hanswer.trans hanswer'.symm, hcalls.trans hcalls'.symm]
      exact ⟨trivial, hlast, trivial⟩

/--
**The sink is not felt**, for any lines over any transports, any steps, and any
two sinks: any leaves over any writers, in any fans.

* Every step answers the same with both, and the same calls are seen of it, in
  the same order.
* After every step the lines are the same: their transports, their connections
  and their interrupters.
* Both sinks are handed the same events.  Those are what a memory keeps that is
  put before either sink, which changes nothing else of the run; and each sink
  becomes what they make of it.
-/
theorem sink_unfelt
    (lines : List (Line σ))
    (b : Board ω) (r : Route)
    (b' : Board ω') (r' : Route)
    (xs : List (SessionStep σ)) :
    let s : Session σ ω := { lines := lines, board := b, route := r }
    let t : Session σ ω' := { lines := lines, board := b', route := r' }
    (s.run xs).1 = (t.run xs).1 ∧
    (s.run xs).2.2.map Trace.calls = (t.run xs).2.2.map Trace.calls ∧
    (∀ n,
      (s.run (xs.take n)).2.1.lines = (t.run (xs.take n)).2.1.lines) ∧
    ∃ handed : List Event,
      (s.watched []).run xs =
        ((s.run xs).1, (s.run xs).2.1.watched handed, (s.run xs).2.2) ∧
      (t.watched []).run xs =
        ((t.run xs).1, (t.run xs).2.1.watched handed, (t.run xs).2.2) ∧
      (s.run xs).2.1.board = b.feed r handed ∧
      (t.run xs).2.1.board = b'.feed r' handed := by
  intro s t
  have hlines : s.lines = t.lines := rfl
  obtain ⟨hanswers, -, hcalls⟩ := run_alike hlines xs
  refine ⟨hanswers, hcalls, fun n => (run_alike hlines (xs.take n)).2.1,
    handed lines xs, s.run_watched [] xs, t.run_watched [] xs,
    s.board_run_eq_feed xs, t.board_run_eq_feed xs⟩

/-- A log of lines that fails on every write, in a fan, against no sink at all:
the failures are logged, and the calls are the same. -/
example :
    let lines : List (Line Script) :=
      [(Line.open 0 {} { descriptor := 3, peer := .ok "a" }).2.1]
    let s : Session Script LimitedWriter :=
      { lines := lines
        board := { leaves := [.jsonLines { room := some 0 }] }
        route := .fanout [.fanout [], .leaf 0] }
    let t : Session Script LimitedWriter :=
      { lines := lines, board := { leaves := [] }, route := .fanout [] }
    let xs : List (SessionStep Script) :=
      [.on 0 (.write [1, 2]), .on 0 (.read 4), .on 0 .close]
    (s.run xs).2.2.map List.length = [2, 2, 3] ∧
    (t.run xs).2.2.map List.length = [1, 1, 2] ∧
    (s.run xs).2.2.map Trace.calls = (t.run xs).2.2.map Trace.calls := by
  cbv

end Session

end StreamServer
