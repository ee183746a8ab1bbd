import Mathlib
import StreamServer.Proofs.Counting
import StreamServer.Proofs.EventLog
import StreamServer.Proofs.SinkChoice

/-!
# Totals and what callers saw

The events of a session are those of its calls, so a sink that counts has counted
what the calls returned: the octets and the transfers that succeeded, and the
closes that failed.

The total of closed connections is of another kind, since a connection may be
closed again and again and is counted once.  It is the number of lines on which a
close was called: the first close of a line is the one that finds its handle
there, and after it, or after the connection is gone, there is no other.
-/

namespace StreamServer

namespace CallResult

/-- Whether a call has moved octets, be they none, in a direction. -/
def isDone : Direction → CallResult → Bool
  | .outbound, .wrote (.ok _) => true
  | .inbound, .read (.ok _) => true
  | _, _ => false

def isClose : CallResult → Bool
  | .closed .. => true
  | _ => false

def isFailedClose : CallResult → Bool
  | .closed _ (.error _) => true
  | _ => false

def isFirstClose : CallResult → Bool
  | .closed false _ => true
  | _ => false

/-- What a call that returned so adds to a counter. -/
def weight : Metric → CallResult → Nat
  | .bytes d, r => r.octets d
  | .transfers d, r => if r.isDone d then 1 else 0
  | .closed, r => if r.isFirstClose then 1 else 0
  | .closeFailures, r => if r.isFailedClose then 1 else 0

theorem sum_weight_events_of_transfer
    (c : Connection) (m : Metric)
    {r : CallResult}
    (htransfer : r.isTransfer = true) :
    ((r.events c).map m.weight).sum = r.weight m := by
  rcases r with (e | n) | (e | data) | ⟨again, r⟩
  · rcases m with (_ | _) | (_ | _) | _ | _ <;> rfl
  · rcases m with (_ | _) | (_ | _) | _ | _ <;>
      simp [events, Metric.weight, weight, octets, isDone, isFirstClose,
        isFailedClose]
  · rcases m with (_ | _) | (_ | _) | _ | _ <;> rfl
  · rcases m with (_ | _) | (_ | _) | _ | _ <;>
      simp [events, Metric.weight, weight, octets, isDone, isFirstClose,
        isFailedClose]
  · cases htransfer

/-- A close counts once if it is the first, and once more if it fails. -/
theorem sum_weight_events_of_close
    {σ : Type} [Transport σ]
    (c : Connection) (t : σ) (m : Metric) :
    let r : CallResult := .closed c.handle.isNone (c.close t).result
    ((r.events c).map m.weight).sum = r.weight m := by
  intro r
  cases owns : c.handle with
  | none =>
      have hr : r =
          .closed true (.error (.closeFailed c.id "already closed")) := by
        simp only [r, owns, Connection.close_again owns, Option.isNone_none]
      rw [hr]
      rcases m with (_ | _) | (_ | _) | _ | _ <;> rfl
  | some h =>
      rcases Connection.close_first owns t with
        ⟨hresult, -⟩ | ⟨reason, hresult, -⟩
      · have hr : r = .closed false (.ok ()) := by
          simp only [r, owns, hresult, Option.isNone_some]
        rw [hr]
        rcases m with (_ | _) | (_ | _) | _ | _ <;> rfl
      · have hr : r = .closed false (.error (.closeFailed c.id reason)) := by
          simp only [r, owns, hresult, Option.isNone_some]
        rw [hr]
        rcases m with (_ | _) | (_ | _) | _ | _ <;> rfl

end CallResult

namespace Line

variable {σ : Type}

/-! ## One line -/

/-- Whether there is a connection that was closed. -/
def isEnded (l : Line σ) : Bool :=
  l.connection.any (·.handle.isNone)

/-- Whether there is no open connection. -/
def isSpent (l : Line σ) : Bool :=
  l.connection.all (·.handle.isNone)

theorem isEnded_of_isSpent
    {l : Line σ}
    (hsome : l.connection.isSome = true)
    (spent : l.isSpent = true) :
    l.isEnded = true := by
  obtain ⟨c, hc⟩ := Option.isSome_iff_exists.mp hsome
  simp only [isSpent, hc, Option.all_some] at spent
  simpa only [isEnded, hc, Option.any_some] using spent

variable [Transport σ]

/-- Without a connection nothing is returned that counts. -/
theorem Calls.of_no_connection
    {l : Line σ} {again : Bool} {s : LineStep}
    {rs : List CallResult} {T : Trace}
    (hc : l.connection = none)
    (calls : Calls l again s rs T) :
    rs = [] ∧ T.events = [] := by
  cases calls with
  | other _ hevents _ _ => exact ⟨rfl, hevents⟩
  | write _ hc' | writeAll _ hc' | read _ hc' _ | close hc' =>
      rw [hc] at hc'
      cases hc'

/-- The events of a step weigh what its calls returned. -/
theorem sum_weight_step
    (l : Line σ) (s : LineStep) (m : Metric) :
    ((l.step s).2.2.events.map m.weight).sum =
      ((l.resultsOf l.isEnded s).map (CallResult.weight m)).sum := by
  have calls := calls_step l l.isEnded s
  cases hc : l.connection with
  | none =>
      obtain ⟨hresults, hevents⟩ := calls.of_no_connection hc
      rw [hresults, hevents]
      rfl
  | some c =>
      have hagain : l.isEnded = c.handle.isNone := by
        rw [isEnded, hc]
        rfl
      have hone : ∀ r ∈ l.resultsOf l.isEnded s,
          ((r.events c).map m.weight).sum = r.weight m := by
        intro r mem
        by_cases hclose : s = .close
        · subst hclose
          rw [calls.results_close hc, List.mem_singleton] at mem
          rw [mem, hagain]
          exact CallResult.sum_weight_events_of_close c l.transport m
        · exact CallResult.sum_weight_events_of_transfer c m
            (calls.isTransfer_of_mem hclose mem)
      rw [calls.events_eq hc hagain, List.map_flatMap, List.flatMap_def,
        List.sum_flatten, List.map_map]
      exact congrArg List.sum (List.map_congr_left hone)

/-- Only a close on a connection returns what a close does. -/
theorem resultsOf_cases
    (l : Line σ) (s : LineStep) :
    (∀ r ∈ l.resultsOf l.isEnded s, r.isClose = false) ∨
    (s = .close ∧ l.connection.isSome = true) := by
  have calls := calls_step l l.isEnded s
  by_cases hclose : s = .close
  · subst hclose
    cases hc : l.connection with
    | none =>
        left
        rw [(calls.of_no_connection hc).1]
        simp
    | some c => exact Or.inr ⟨rfl, rfl⟩
  · left
    intro r mem
    have htransfer := calls.isTransfer_of_mem hclose mem
    cases r with
    | closed again r => cases htransfer
    | _ => rfl

theorem isSpent_step
    {l : Line σ}
    (spent : l.isSpent = true)
    (s : LineStep) :
    (l.step s).2.1.isSpent = true := by
  unfold isSpent at spent ⊢
  rw [connection_step]
  cases hc : l.connection with
  | none => cases s <;> rfl
  | some c =>
      rw [hc] at spent
      cases s with
      | close => rfl
      | drop => rfl
      | _ => exact spent

/-- A line is ended by a close, and by nothing else. -/
theorem isEnded_of_step
    {l : Line σ} {s : LineStep}
    (ended : (l.step s).2.1.isEnded = true) :
    l.isEnded = true ∨ (s = .close ∧ l.connection.isSome = true) := by
  unfold isEnded at ended ⊢
  rw [connection_step] at ended
  cases hc : l.connection with
  | none =>
      rw [hc] at ended
      cases s <;> cases ended
  | some c =>
      rw [hc] at ended
      cases s with
      | close => exact Or.inr ⟨rfl, rfl⟩
      | drop => cases ended
      | _ => exact Or.inl ended

theorem isSpent_step_close
    (l : Line σ) :
    (l.step .close).2.1.isSpent = true := by
  unfold isSpent
  rw [connection_step]
  cases l.connection <;> rfl

theorem isEnded_open
    (number : Nat) (settings : ConnectionSettings) (t : σ) :
    (Line.open number settings t).2.1.isEnded = false := by
  rcases open_cases number settings t with
    ⟨c, r, hmade, hopen⟩ | ⟨f, -, hopen⟩
  · rw [hopen, isEnded]
    simp [hmade.owns]
  · rw [hopen]
    rfl

end Line

namespace Session

variable {σ ω : Type} [Transport σ]

/-! ## All lines -/

/-- What the calls of a step return, each with the line that it is on. -/
def calledBy (lines : List (Line σ)) :
    SessionStep σ → List (Nat × CallResult)
  | .open _ _ => []
  | .on i s =>
      match lines[i]? with
      | none => []
      | some l => (l.resultsOf l.isEnded s).map fun r => (i, r)

/-- What the calls of a run return, in order. -/
def called (lines : List (Line σ)) :
    List (SessionStep σ) → List (Nat × CallResult)
  | [] => []
  | a :: rest => calledBy lines a ++ called (advance lines a).2.1 rest

theorem sum_weight_advance
    (lines : List (Line σ)) (a : SessionStep σ) (m : Metric) :
    ((advance lines a).2.2.events.map m.weight).sum =
      ((calledBy lines a).map fun x => x.2.weight m).sum := by
  cases a with
  | «open» settings t =>
      have hevents : (advance lines (.open settings t)).2.2.events = [] := by
        simp only [advance]
        rcases Line.open_cases lines.length settings t with
          ⟨c, r, -, hopen⟩ | ⟨f, -, hopen⟩
        · rw [hopen]
          rfl
        · rw [hopen]
          rfl
      rw [hevents]
      rfl
  | on i s =>
      simp only [advance, calledBy]
      cases lines[i]? with
      | none => rfl
      | some l =>
          dsimp only
          rw [l.sum_weight_step s m, List.map_map]
          rfl

/-- The events that a sink is handed weigh what the calls returned. -/
theorem sum_weight_handed
    (lines : List (Line σ)) (xs : List (SessionStep σ)) (m : Metric) :
    ((handed lines xs).map m.weight).sum =
      ((called lines xs).map fun x => x.2.weight m).sum := by
  induction xs generalizing lines with
  | nil => rfl
  | cons a rest ih =>
      rw [handed, called, List.map_append, List.map_append, List.sum_append,
        List.sum_append, sum_weight_advance, ih]

/-- Weights that are one or none count those that have one. -/
theorem sum_ite_eq_countP
    (calls : List (Nat × CallResult)) (p : CallResult → Bool) :
    (calls.map fun x => if p x.2 then 1 else 0).sum =
      calls.countP fun x => p x.2 := by
  induction calls with
  | nil => rfl
  | cons x rest ih =>
      rw [List.map_cons, List.sum_cons, ih, List.countP_cons, Nat.add_comm]

/-! ## Lines that were closed -/

open CallResult (isClose isFirstClose)

/-- The lines on which calls returned so, once for each call. -/
def linesWith
    (returned : CallResult → Bool)
    (calls : List (Nat × CallResult)) : List Nat :=
  (calls.filter fun x => returned x.2).map (·.1)

theorem linesWith_append
    (returned : CallResult → Bool) (xs ys : List (Nat × CallResult)) :
    linesWith returned (xs ++ ys) =
      linesWith returned xs ++ linesWith returned ys := by
  rw [linesWith, List.filter_append, List.map_append]
  rfl

theorem length_linesWith
    (returned : CallResult → Bool) (calls : List (Nat × CallResult)) :
    (linesWith returned calls).length =
      calls.countP fun x => returned x.2 := by
  rw [linesWith, List.length_map, List.countP_eq_length_filter]

/-- A first close is a close. -/
theorem mem_closes_of_mem_first
    {calls : List (Nat × CallResult)} {i : Nat}
    (mem : i ∈ linesWith isFirstClose calls) :
    i ∈ linesWith isClose calls := by
  obtain ⟨x, hx, rfl⟩ := List.mem_map.mp mem
  obtain ⟨hin, hfirst⟩ := List.mem_filter.mp hx
  refine List.mem_map_of_mem (List.mem_filter.mpr ⟨hin, ?_⟩)
  rcases x with ⟨i, _ | _ | ⟨again, r⟩⟩
  · cases hfirst
  · cases hfirst
  · rfl

omit [Transport σ] in
/-- Whether the line with a number has no open connection. -/
def spentAt (lines : List (Line σ)) (i : Nat) : Prop :=
  ∃ l, lines[i]? = some l ∧ l.isSpent = true

omit [Transport σ] in
/-- Whether the connection of the line with a number was closed. -/
def endedAt (lines : List (Line σ)) (i : Nat) : Prop :=
  ∃ l, lines[i]? = some l ∧ l.isEnded = true

/-- A step on a line that is there is that line's own step. -/
theorem line_advance_on
    {lines : List (Line σ)} {i : Nat} {l : Line σ}
    (there : lines[i]? = some l)
    (s : LineStep) :
    (advance lines (.on i s)).2.1[i]? = some (l.step s).2.1 := by
  simp only [advance, there]
  exact List.getElem?_set_self (List.getElem?_eq_some_iff.mp there).1

/-- What a step makes of the line with a number. -/
theorem line_advance_cases
    (lines : List (Line σ)) (a : SessionStep σ) (i : Nat) :
    (advance lines a).2.1[i]? = lines[i]? ∨
    (∃ s l,
      a = .on i s ∧
      lines[i]? = some l ∧
      (advance lines a).2.1[i]? = some (l.step s).2.1) ∨
    (∃ settings t,
      lines[i]? = none ∧
      (advance lines a).2.1[i]? =
        some (Line.open lines.length settings t).2.1) := by
  cases a with
  | «open» settings t =>
      by_cases hi : i = lines.length
      · subst hi
        right; right
        exact ⟨settings, t, by simp, by simp [advance]⟩
      · left
        simp only [advance, List.getElem?_append, List.getElem?_singleton]
        split
        · rfl
        · rw [if_neg (by omega), List.getElem?_eq_none (by omega)]
  | on j s =>
      cases there : lines[j]? with
      | none =>
          left
          simp only [advance, there]
      | some l =>
          by_cases here : j = i
          · subst here
            right; left
            exact ⟨s, l, rfl, there, line_advance_on there s⟩
          · left
            simp only [advance, there]
            exact List.getElem?_set_ne here

theorem spentAt_advance
    {lines : List (Line σ)} {i : Nat}
    (spent : spentAt lines i)
    (a : SessionStep σ) :
    spentAt (advance lines a).2.1 i := by
  obtain ⟨l, there, hl⟩ := spent
  rcases line_advance_cases lines a i with
    hsame | ⟨s, l', -, there', hnext⟩ | ⟨_, _, hnone, -⟩
  · exact ⟨l, hsame.trans there, hl⟩
  · cases there.symm.trans there'
    exact ⟨_, hnext, l.isSpent_step hl s⟩
  · rw [there] at hnone
    cases hnone

theorem endedAt_of_advance
    {lines : List (Line σ)} {a : SessionStep σ} {i : Nat}
    (ended : endedAt (advance lines a).2.1 i) :
    endedAt lines i ∨
      ∃ l,
        a = .on i .close ∧
        lines[i]? = some l ∧
        l.connection.isSome = true := by
  obtain ⟨l, there, hl⟩ := ended
  rcases line_advance_cases lines a i with
    hsame | ⟨s, l', rfl, there', hnext⟩ | ⟨settings, t, -, hnext⟩
  · exact Or.inl ⟨l, hsame.symm.trans there, hl⟩
  · cases there.symm.trans hnext
    rcases Line.isEnded_of_step hl with hended | ⟨rfl, hsome⟩
    · exact Or.inl ⟨l', there', hended⟩
    · exact Or.inr ⟨l', rfl, there', hsome⟩
  · cases there.symm.trans hnext
    rw [Line.isEnded_open] at hl
    cases hl

/-- What is called on one line. -/
theorem calledBy_on
    {lines : List (Line σ)} {i : Nat} {l : Line σ}
    (there : lines[i]? = some l)
    (s : LineStep) :
    calledBy lines (.on i s) =
      (l.resultsOf l.isEnded s).map fun r => (i, r) := by
  simp only [calledBy, there]

/-- A close on a connection is the first if the connection was not closed
before. -/
theorem closes_of_close
    {lines : List (Line σ)} {i : Nat} {l : Line σ}
    (there : lines[i]? = some l)
    (hsome : l.connection.isSome = true) :
    linesWith isClose (calledBy lines (.on i .close)) = [i] ∧
    linesWith isFirstClose (calledBy lines (.on i .close)) =
      if l.isEnded then [] else [i] := by
  obtain ⟨c, hc⟩ := Option.isSome_iff_exists.mp hsome
  have hresults := (Line.calls_step l l.isEnded .close).results_close hc
  rw [calledBy_on there, hresults]
  cases l.isEnded <;> exact ⟨rfl, rfl⟩

theorem mem_first_or_ended
    {lines : List (Line σ)} {i : Nat} {l : Line σ}
    (there : lines[i]? = some l)
    (hsome : l.connection.isSome = true) :
    i ∈ linesWith isFirstClose (calledBy lines (.on i .close)) ∨
      endedAt lines i := by
  cases ended : l.isEnded with
  | true => exact Or.inr ⟨l, there, ended⟩
  | false =>
      left
      simp [(closes_of_close there hsome).2, ended]

/-- A step closes no line, or it is a close on a connection. -/
theorem closes_cases
    (lines : List (Line σ)) (a : SessionStep σ) :
    (linesWith isClose (calledBy lines a) = [] ∧
      linesWith isFirstClose (calledBy lines a) = []) ∨
    (∃ i l,
      a = .on i .close ∧
      lines[i]? = some l ∧
      l.connection.isSome = true) := by
  cases a with
  | «open» settings t => exact Or.inl ⟨rfl, rfl⟩
  | on i s =>
      cases there : lines[i]? with
      | none =>
          left
          simp only [calledBy, there]
          exact ⟨rfl, rfl⟩
      | some l =>
          rcases l.resultsOf_cases s with hnone | ⟨rfl, hsome⟩
          · left
            rw [calledBy_on there]
            constructor
            · simpa [linesWith, List.filter_map] using hnone
            · have hfirst : ∀ r ∈ l.resultsOf l.isEnded s,
                  r.isFirstClose = false := by
                intro r mem
                have hclose := hnone r mem
                cases r with
                | closed again r => cases hclose
                | _ => rfl
              simpa [linesWith, List.filter_map] using hfirst
          · exact Or.inr ⟨i, l, rfl, there, hsome⟩

/-- A step has at most one first close, on a line that is spent by it and was not
before.  Another close is on a line that was ended before, and it takes a first
close to end a line. -/
theorem first_close_step
    (lines : List (Line σ)) (a : SessionStep σ) :
    (linesWith isFirstClose (calledBy lines a)).Nodup ∧
    (∀ i ∈ linesWith isFirstClose (calledBy lines a),
      ¬ spentAt lines i ∧ spentAt (advance lines a).2.1 i) ∧
    (∀ i ∈ linesWith isClose (calledBy lines a),
      i ∈ linesWith isFirstClose (calledBy lines a) ∨ endedAt lines i) ∧
    (∀ i,
      endedAt (advance lines a).2.1 i →
      i ∈ linesWith isFirstClose (calledBy lines a) ∨ endedAt lines i) := by
  refine ⟨?_, ?_, ?_, ?_⟩
  · rcases closes_cases lines a with ⟨-, hfirst⟩ | ⟨i, l, rfl, there, hsome⟩
    · rw [hfirst]
      exact List.nodup_nil
    · rw [(closes_of_close there hsome).2]
      split <;> simp
  · intro j mem
    rcases closes_cases lines a with ⟨-, hfirst⟩ | ⟨i, l, rfl, there, hsome⟩
    · rw [hfirst] at mem
      cases mem
    · rw [(closes_of_close there hsome).2] at mem
      split at mem
      · cases mem
      · next unended =>
          obtain rfl := List.mem_singleton.mp mem
          refine ⟨?_, _, line_advance_on there .close, l.isSpent_step_close⟩
          rintro ⟨l', there', spent⟩
          cases there.symm.trans there'
          exact unended (Line.isEnded_of_isSpent hsome spent)
  · intro j mem
    rcases closes_cases lines a with ⟨hclosed, -⟩ | ⟨i, l, rfl, there, hsome⟩
    · rw [hclosed] at mem
      cases mem
    · rw [(closes_of_close there hsome).1] at mem
      obtain rfl := List.mem_singleton.mp mem
      exact mem_first_or_ended there hsome
  · intro j ended
    rcases endedAt_of_advance ended with hbefore | ⟨l, rfl, there, hsome⟩
    · exact Or.inr hbefore
    · exact mem_first_or_ended there hsome

/-- No line has two first closes, none that was spent before has one, and every
line with a close has one, unless it was ended before. -/
theorem first_closes_called
    (lines : List (Line σ)) (xs : List (SessionStep σ)) :
    (linesWith isFirstClose (called lines xs)).Nodup ∧
    (∀ i ∈ linesWith isFirstClose (called lines xs), ¬ spentAt lines i) ∧
    (∀ i ∈ linesWith isClose (called lines xs),
      i ∈ linesWith isFirstClose (called lines xs) ∨ endedAt lines i) := by
  induction xs generalizing lines with
  | nil => simp [called, linesWith]
  | cons a rest ih =>
      obtain ⟨hnodup, hunspent, hall⟩ := ih (advance lines a).2.1
      obtain ⟨hnow, hspends, hclosed, hends⟩ := first_close_step lines a
      rw [called, linesWith_append, linesWith_append]
      refine ⟨?_, ?_, ?_⟩
      · refine List.nodup_append.mpr ⟨hnow, hnodup, ?_⟩
        rintro i before j later rfl
        exact hunspent i later (hspends i before).2
      · intro i mem
        rcases List.mem_append.mp mem with before | later
        · exact (hspends i before).1
        · intro spent
          exact hunspent i later (spentAt_advance spent a)
      · intro i mem
        rw [List.mem_append]
        rcases List.mem_append.mp mem with before | later
        · exact (hclosed i before).imp_left Or.inl
        · rcases hall i later with hin | ended
          · exact Or.inl (Or.inr hin)
          · exact (hends i ended).imp_left Or.inl

/-- Over lines that are all new there are as many first closes as lines with a
close. -/
theorem length_first_closes
    (xs : List (SessionStep σ)) :
    (linesWith isFirstClose (called [] xs)).length =
      (linesWith isClose (called [] xs)).toFinset.card := by
  obtain ⟨hnodup, -, hall⟩ := first_closes_called [] xs
  have hsame : (linesWith isFirstClose (called [] xs)).toFinset =
      (linesWith isClose (called [] xs)).toFinset := by
    ext i
    rw [List.mem_toFinset, List.mem_toFinset]
    constructor
    · exact fun mem => mem_closes_of_mem_first mem
    · intro mem
      rcases hall i mem with hin | ⟨l, there, -⟩
      · exact hin
      · cases there
  rw [← hsame, List.toFinset_card_of_nodup hnodup]

/-! ## What is counted in a session -/

variable [Writer ω]

/-- A counting sink has counted the weights of what the calls returned. -/
theorem total_run
    {b : Board ω} {r : Route}
    (fresh : b.counters = [])
    (once : b.CountsOnce r)
    (xs : List (SessionStep σ)) (m : Metric) :
    let s : Session σ ω := { board := b, route := r }
    (s.run xs).2.1.board.counters.total m =
      UInt64.ofNat ((called [] xs).map fun x => x.2.weight m).sum := by
  intro s
  rw [s.board_run_eq_feed xs, Board.counters_feed once,
    Counters.total_countAll, fresh, sum_weight_handed]
  exact UInt64.zero_add _

/--
**The totals are those of what callers saw**, in sixty-four bits, for any session
over any number of lines that starts with nothing counted, and whose sink counts
once: a counter, or any tree in which one counter hangs once among other leaves.

* In each direction, the octets are the sum of the counts that writes returned,
  those of a delivery among them, or of the lengths of what reads returned.  The
  transfers are the number of the writes or reads that returned one.
* The closed are the lines on which a close was called, however often.
* The failed closes are the closes that returned an error.
* Of any events whatsoever the order does not matter to any total.
-/
theorem totals_agree_with_calls
    {b : Board ω} {r : Route}
    (fresh : b.counters = [])
    (once : b.CountsOnce r) :
    (∀ xs : List (SessionStep σ),
      let s : Session σ ω := { board := b, route := r }
      let calls := called [] xs
      let total := (s.run xs).2.1.board.counters.total
      (∀ d,
        total (.bytes d) =
          UInt64.ofNat (calls.map fun x => x.2.octets d).sum ∧
        total (.transfers d) =
          UInt64.ofNat (calls.countP fun x => x.2.isDone d)) ∧
      total .closed = UInt64.ofNat (linesWith isClose calls).toFinset.card ∧
      total .closeFailures =
        UInt64.ofNat (calls.countP fun x => x.2.isFailedClose)) ∧
    (∀ es fs,
      es.Perm fs →
      (b.feed r es).counters.totals = (b.feed r fs).counters.totals) := by
  constructor
  · intro xs s calls total
    have htotal : ∀ m, total m =
        UInt64.ofNat (calls.map fun x => x.2.weight m).sum :=
      total_run fresh once xs
    refine ⟨fun d => ⟨htotal (.bytes d), ?_⟩, ?_, ?_⟩
    · rw [htotal]
      exact congrArg _ (sum_ite_eq_countP calls (CallResult.isDone d))
    · have hfirst :
          (calls.map fun x => x.2.weight .closed).sum =
            (linesWith isFirstClose calls).length := by
        rw [length_linesWith]
        exact sum_ite_eq_countP calls CallResult.isFirstClose
      rw [htotal, hfirst, length_first_closes]
    · rw [htotal]
      exact congrArg _ (sum_ite_eq_countP calls CallResult.isFailedClose)
  · intro es fs perm
    rw [Board.counters_feed once, Board.counters_feed once]
    exact Counters.totals_countAll_perm _ perm

/-- Three lines: a delivery in two writes and two closes, of which one fails in
itself and one comes too late; a read, and the connection is dropped; and a line
that could not be opened. -/
theorem totals_agree_with_calls_three_lines :
    let b : Board LimitedWriter :=
      { leaves := [.memory [], .metrics, .journal] }
    let r : Route := .fanout [.leaf 0, .fanout [.fanout [], .leaf 1], .leaf 2]
    let xs : List (SessionStep Script) :=
      [.open {}
          { descriptor := 3
            peer := .ok "a"
            writes := [.ok 2]
            shutdowns := [some (.bare .timedOut)] },
        .open {}
          { descriptor := 4, peer := .ok "b", reads := [.chunk [7, 8, 9] none] },
        .open {}
          { descriptor := 5, peer := .error (.bare .notConnected) },
        .on 0 (.writeAll [1, 2, 3, 4, 5]),
        .on 1 (.read 8),
        .on 0 .close,
        .on 1 .drop,
        .on 0 .close,
        .on 0 (.write [6]),
        .on 2 .close]
    let total :=
      (({ board := b, route := r } : Session Script LimitedWriter).run
        xs).2.1.board.counters.total
    b.counters = [] ∧
    b.CountsOnce r ∧
    linesWith isClose (called [] xs) = [0, 0] ∧
    total .closed = UInt64.ofNat 1 ∧
    total (.bytes .outbound) = UInt64.ofNat 5 ∧
    total (.transfers .outbound) = UInt64.ofNat 2 ∧
    total .closeFailures = UInt64.ofNat 2 := by
  intro b r xs total
  have fresh : b.counters = [] := rfl
  have once : b.CountsOnce r := by cbv
  have hlines : linesWith isClose (called [] xs) = [0, 0] := by cbv
  have hoctets :
      ((called [] xs).map fun x => x.2.octets .outbound).sum = 5 := by
    cbv
  have hdone : ((called [] xs).countP fun x => x.2.isDone .outbound) = 2 := by
    cbv
  have hfails : ((called [] xs).countP fun x => x.2.isFailedClose) = 2 := by
    cbv
  obtain ⟨hmoved, hclosed, hfailed⟩ :=
    (totals_agree_with_calls fresh once).1 xs
  obtain ⟨hbytes, htransfers⟩ := hmoved .outbound
  rw [hlines] at hclosed
  rw [hoctets] at hbytes
  rw [hdone] at htransfers
  rw [hfails] at hfailed
  exact ⟨fresh, once, hlines, hclosed, hbytes, htransfers, hfailed⟩

end Session

end StreamServer
