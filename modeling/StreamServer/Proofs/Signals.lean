import Mathlib
import StreamServer.Shutdown

/-!
# Triggering a shutdown

What happens to a shutdown is told as a history: the steps of a run, each with
its answer.  The flag is down until somebody raises it, and who raised it owes
the message.  So there is never more than one message, and a listener has either
no message behind it or all of them; it is never told that it missed any.

What a listener finds is said by the history alone: the signal, if the message
was sent after it last listened.
-/

namespace StreamServer

namespace Shutdown

/-- The steps of a run, each with its answer. -/
abbrev History := List (ShutdownStep × ShutdownAnswer)

variable {s next last : Shutdown}
variable {a : ShutdownStep} {answer : ShutdownAnswer}
variable {H H' : History}
variable {l : Nat}

/-- Whether what a step is about is still there. -/
def finds (s : Shutdown) : ShutdownStep → Bool
  | .subscribe h => s.holds h
  | .duplicate h => s.holds h
  | .giveBack h => s.holds h
  | .raise h => s.holds h
  | .send place => place < s.firing.length
  | .query h => s.holds h
  | .receive l => (s.position? l).isSome
  | .leave l => (s.position? l).isSome

/-- What a step answers, and what it leaves. -/
inductive Moves (s : Shutdown) :
    ShutdownStep → ShutdownAnswer → Shutdown → Prop
  | gone
      {a : ShutdownStep}
      (missing : s.finds a = false) :
      Moves s a .gone s
  | subscribes
      {h : Nat} :
      Moves s (.subscribe h) (.listener s.listeners.length)
        { s with listeners := s.listeners ++ [some s.sent] }
  | duplicates
      {h : Nat} :
      Moves s (.duplicate h) (.handle s.handles.length)
        { s with handles := s.handles ++ [true] }
  | busy
      {h : Nat} :
      Moves s (.giveBack h) .busy s
  | givesBack
      {h : Nat} :
      Moves s (.giveBack h) .done
        { s with handles := s.handles.set h false }
  | raisesAgain
      {h : Nat}
      (triggered : s.triggered = true) :
      Moves s (.raise h) .done s
  | raises
      {h : Nat}
      (first : s.triggered = false) :
      Moves s (.raise h) .done
        { s with triggered := true, firing := s.firing ++ [h] }
  | sends
      {place : Nat}
      (due : place < s.firing.length) :
      Moves s (.send place) .done
        { s with firing := s.firing.eraseIdx place, sent := s.sent + 1 }
  | queries
      {h : Nat} :
      Moves s (.query h) (.flag s.triggered) s
  | receives
      {l position : Nat}
      (listens : s.position? l = some position) :
      Moves s (.receive l) (.reception (s.reception position))
        { s with
          listeners := s.listeners.set l
            (some (positionAfter position (s.reception position))) }
  | leaves
      {l position : Nat}
      (listens : s.position? l = some position) :
      Moves s (.leave l) .done
        { s with listeners := s.listeners.set l none }

theorem moves_step (s : Shutdown) (a : ShutdownStep) :
    s.Moves a (s.step a).1 (s.step a).2.1 := by
  cases a with
  | subscribe h =>
      simp only [step]
      split
      case isTrue => exact .subscribes
      case isFalse missing => exact .gone (by simpa [finds] using missing)
  | duplicate h =>
      simp only [step]
      split
      case isTrue => exact .duplicates
      case isFalse missing => exact .gone (by simpa [finds] using missing)
  | giveBack h =>
      simp only [step]
      split
      case isTrue =>
        split
        · exact .busy
        · exact .givesBack
      case isFalse missing => exact .gone (by simpa [finds] using missing)
  | raise h =>
      simp only [step]
      split
      case isTrue =>
        split
        case isTrue triggered => exact .raisesAgain triggered
        case isFalse first => exact .raises (Bool.not_eq_true _ ▸ first)
      case isFalse missing => exact .gone (by simpa [finds] using missing)
  | send place =>
      simp only [step]
      split
      case isTrue due => exact .sends due
      case isFalse missing => exact .gone (by simpa [finds] using missing)
  | query h =>
      simp only [step]
      split
      case isTrue => exact .queries
      case isFalse missing => exact .gone (by simpa [finds] using missing)
  | receive l =>
      simp only [step]
      split
      case h_1 missing => exact .gone (by simp [finds, missing])
      case h_2 listens => exact .receives listens
  | leave l =>
      simp only [step]
      split
      case h_1 missing => exact .gone (by simp [finds, missing])
      case h_2 listens => exact .leaves listens

/-! ## Histories -/

/-- What happens in a run. -/
def history (s : Shutdown) (steps : List ShutdownStep) : History :=
  steps.zip (s.run steps).1

/-- Whether the message was sent in a step. -/
def isSend : ShutdownStep × ShutdownAnswer → Bool
  | (.send _, .done) => true
  | _ => false

/-- The flag has been raised. -/
def Raised (H : History) : Prop :=
  ∃ h, (.raise h, .done) ∈ H

/-- The message has been sent. -/
def Sent (H : History) : Prop :=
  ∃ place, (.send place, .done) ∈ H

/-- The message has been sent, and a listener has not listened since. -/
def Unheard (l : Nat) (H : History) : Prop :=
  ∃ old place new,
    H = old ++ (.send place, .done) :: new ∧ ∀ x ∈ new, x.1 ≠ .receive l

/-- A handle was there from the start or has been handed out, and has not been
given back. -/
def Remains (h : Nat) (H : History) : Prop :=
  (h = 0 ∨ ∃ g, (.duplicate g, .handle h) ∈ H) ∧
    (.giveBack h, .done) ∉ H

/-- A listener has begun to listen, and has not left. -/
def Stays (l : Nat) (H : History) : Prop :=
  (∃ h, (.subscribe h, .listener l) ∈ H) ∧ (.leave l, .done) ∉ H

/-- A history leads from one shutdown to another. -/
inductive Runs : Shutdown → History → Shutdown → Prop
  | nil
      {s : Shutdown} :
      Runs s [] s
  | cons
      {s next last : Shutdown} {a : ShutdownStep} {answer : ShutdownAnswer}
      {H : History}
      (moves : s.Moves a answer next)
      (rest : Runs next H last) :
      Runs s ((a, answer) :: H) last

theorem runs_history (s : Shutdown) (steps : List ShutdownStep) :
    Runs s (s.history steps) (s.run steps).2 := by
  induction steps generalizing s with
  | nil => exact .nil
  | cons a rest ih => exact .cons (moves_step s a) (ih _)

theorem Runs.split
    (runs : Runs s (H ++ H') last) :
    ∃ mid, Runs s H mid ∧ Runs mid H' last := by
  induction H generalizing s with
  | nil => exact ⟨s, .nil, runs⟩
  | cons x H ih =>
      cases runs with
      | cons moves rest =>
          obtain ⟨mid, hleft, hright⟩ := ih rest
          exact ⟨mid, .cons moves hleft, hright⟩

/-- What every step keeps, of a history and of where it has led, is kept in a
run. -/
theorem Runs.keeps
    {P : History → Shutdown → Prop}
    (keep : ∀ {H : History} {s next : Shutdown}
      {a : ShutdownStep} {answer : ShutdownAnswer},
      P H s → s.Moves a answer next → P (H ++ [(a, answer)]) next)
    (holds : P H s)
    (runs : Runs s H' last) :
    P (H ++ H') last := by
  induction runs generalizing H with
  | nil =>
      rw [List.append_nil]
      exact holds
  | cons moves rest ih =>
      have hlast := ih (keep holds moves)
      rwa [List.append_assoc] at hlast

theorem isSend_iff
    {x : ShutdownStep × ShutdownAnswer} :
    isSend x = true ↔ ∃ place, x = (.send place, .done) := by
  obtain ⟨a, answer⟩ := x
  cases a <;> cases answer <;> simp [isSend]

theorem sent_iff_countP :
    Sent H ↔ 0 < H.countP isSend := by
  simp only [Sent, List.countP_pos_iff, isSend_iff]
  constructor
  · rintro ⟨place, mem⟩
    exact ⟨_, mem, place, rfl⟩
  · rintro ⟨_, mem, place, rfl⟩
    exact ⟨place, mem⟩

theorem raised_append :
    Raised (H ++ H') ↔ Raised H ∨ Raised H' := by
  simp only [Raised, List.mem_append, exists_or]

theorem unheard_cons
    {x : ShutdownStep × ShutdownAnswer} :
    Unheard l (x :: H) ↔
      Unheard l H ∨ (isSend x = true ∧ ∀ y ∈ H, y.1 ≠ .receive l) := by
  constructor
  · rintro ⟨old, place, new, hsplit, silent⟩
    rcases List.cons_eq_append_iff.mp hsplit with
      ⟨rfl, hnow⟩ | ⟨older, rfl, rfl⟩
    · cases hnow
      exact Or.inr ⟨rfl, silent⟩
    · exact Or.inl ⟨older, place, new, rfl, silent⟩
  · rintro (⟨old, place, new, rfl, silent⟩ | ⟨now, silent⟩)
    · exact ⟨x :: old, place, new, rfl, silent⟩
    · obtain ⟨place, rfl⟩ := isSend_iff.mp now
      exact ⟨[], place, H, rfl, silent⟩

/-! ## What is kept -/

theorem position?_subscribe
    {m : Nat} :
    ({ s with listeners := s.listeners ++ [some s.sent] } :
        Shutdown).position? m =
      if m = s.listeners.length then some s.sent else s.position? m := by
  simp only [position?, List.getElem?_append]
  by_cases hm : m < s.listeners.length
  · rw [if_pos hm, if_neg (by omega)]
  · rw [if_neg hm]
    by_cases hlast : m = s.listeners.length
    · simp [hlast]
    · have hbeyond : m - s.listeners.length ≠ 0 := by omega
      simp [hlast, hbeyond, List.getElem?_eq_none (Nat.le_of_not_lt hm)]

theorem lt_of_position?
    {p : Nat}
    (listens : s.position? l = some p) :
    l < s.listeners.length := by
  simp only [position?, Option.join_eq_some_iff] at listens
  exact (List.getElem?_eq_some_iff.mp listens).1

theorem position?_set
    {m p : Nat} {place : Option Nat}
    (listens : s.position? l = some p) :
    ({ s with listeners := s.listeners.set l place } :
        Shutdown).position? m =
      if m = l then place else s.position? m := by
  simp only [position?, List.getElem?_set]
  by_cases hm : m = l
  · subst hm
    simp [lt_of_position? listens]
  · simp [hm, Ne.symm hm]

theorem le_positionAfter (p : Nat) (r : Reception) :
    p ≤ positionAfter p r := by
  cases r <;> simp [positionAfter]

namespace Moves

theorem triggered_iff
    (moves : s.Moves a answer next) :
    next.triggered = true ↔
      s.triggered = true ∨ ∃ h, (.raise h, .done) = (a, answer) := by
  cases moves with
  | raisesAgain triggered => simp [triggered]
  | _ => simp

theorem sent_eq
    (moves : s.Moves a answer next) :
    next.sent = s.sent + if isSend (a, answer) then 1 else 0 := by
  cases moves with
  | @gone a missing => cases a <;> rfl
  | _ => rfl

/-- Who raises the flag first owes a message, and who sends one owes it no
longer. -/
theorem owed_eq
    (moves : s.Moves a answer next) :
    next.sent + next.firing.length + (if s.triggered then 1 else 0) =
      s.sent + s.firing.length + (if next.triggered then 1 else 0) := by
  cases moves with
  | raises first => simp [first, Nat.add_assoc]
  | sends due =>
      simp only [List.length_eraseIdx, if_pos due]
      omega
  | _ => rfl

/-- Where a listener is after a step, if it was there before. -/
theorem position?_eq
    {p : Nat}
    (moves : s.Moves a answer next)
    (listens : s.position? l = some p) :
    next.position? l =
      if a = .leave l then none
      else if a = .receive l then
        some (positionAfter p (s.reception p))
      else some p := by
  cases moves with
  | @gone a missing =>
      have hleave : a ≠ .leave l := by
        rintro rfl
        simp [finds, listens] at missing
      have hreceive : a ≠ .receive l := by
        rintro rfl
        simp [finds, listens] at missing
      rw [if_neg hleave, if_neg hreceive, listens]
  | subscribes =>
      rw [position?_subscribe,
        if_neg (Nat.ne_of_lt (lt_of_position? listens))]
      simpa using listens
  | @receives m position hm =>
      rw [position?_set hm]
      by_cases hl : l = m
      · subst hl
        rw [listens] at hm
        cases hm
        simp
      · simp [hl, Ne.symm hl, listens]
  | @leaves m position hm =>
      rw [position?_set hm]
      by_cases hl : l = m
      · simp [hl]
      · simp [hl, Ne.symm hl, listens]
  | _ =>
      rw [if_neg (by simp), if_neg (by simp)]
      exact listens

/-- Who listens finds something, and nobody else does. -/
theorem received
    (moves : s.Moves (.receive l) answer next) :
    (s.position? l = none ∧ answer = .gone) ∨
      ∃ p, s.position? l = some p ∧ answer = .reception (s.reception p) := by
  cases moves with
  | gone missing =>
      exact Or.inl ⟨by simpa [finds] using missing, rfl⟩
  | receives listens => exact Or.inr ⟨_, listens, rfl⟩

end Moves

/-- What is kept in every run from a new shutdown: the flag tells whether it was
raised, whoever raised it first owes the message until it is sent, and no
listener has more messages behind it than were sent. -/
structure Kept (H : History) (s : Shutdown) : Prop where
  raised : s.triggered = true ↔ Raised H
  sends_eq : H.countP isSend = s.sent
  balance : s.sent + s.firing.length = if s.triggered then 1 else 0
  behind : ∀ m p, s.position? m = some p → p ≤ s.sent

namespace Kept

theorem start : Kept [] {} :=
  ⟨by simp [Raised], rfl, rfl, by simp [position?]⟩

theorem sent_le_one
    (kept : Kept H s) :
    s.sent ≤ 1 := by
  have hbalance := kept.balance
  split at hbalance <;> omega

theorem sent_iff
    (kept : Kept H s) :
    Sent H ↔ s.sent = 1 := by
  rw [sent_iff_countP, kept.sends_eq]
  have hone := kept.sent_le_one
  omega

theorem raised_of_sent
    (kept : Kept H s)
    (sent : Sent H) :
    Raised H := by
  have hsent := kept.sent_iff.mp sent
  have hbalance := kept.balance
  rw [← kept.raised]
  by_contra hdown
  rw [if_neg hdown] at hbalance
  omega

/-- With at most one message no listener has missed any. -/
theorem reception_eq
    (kept : Kept H s)
    (p : Nat) :
    s.reception p =
      if p < s.sent then .signal
      else if s.abandoned then .closed
      else .empty := by
  have hone := kept.sent_le_one
  rw [reception, if_neg (by omega)]

theorem reception_eq_signal_iff
    (kept : Kept H s)
    {p : Nat} :
    s.reception p = .signal ↔ p < s.sent := by
  rw [kept.reception_eq]
  by_cases hp : p < s.sent
  · simp [hp]
  · cases s.abandoned <;> simp [hp]

theorem reception_ne_lagged
    (kept : Kept H s)
    {p missed : Nat} :
    s.reception p ≠ .lagged missed := by
  rw [kept.reception_eq]
  split
  · simp
  · split <;> simp

/-- Who has listened has everything behind it. -/
theorem positionAfter_eq
    (kept : Kept H s)
    {p : Nat}
    (behind : p ≤ s.sent) :
    positionAfter p (s.reception p) = s.sent := by
  have hone := kept.sent_le_one
  rw [kept.reception_eq]
  by_cases hp : p < s.sent
  · rw [if_pos hp]
    simp only [positionAfter]
    omega
  · have hall : p = s.sent := by omega
    cases s.abandoned <;> simp [positionAfter, hall]

/-- What is kept is kept by every step. -/
theorem keep
    (kept : Kept H s)
    (moves : s.Moves a answer next) :
    Kept (H ++ [(a, answer)]) next where
  raised := by
    rw [moves.triggered_iff, kept.raised]
    simp [Raised, exists_or]
  sends_eq := by
    rw [List.countP_append, kept.sends_eq, List.countP_singleton,
      moves.sent_eq]
  balance := by
    have hbefore := kept.balance
    have howed := moves.owed_eq
    omega
  behind := by
    intro m p hp
    cases moves with
    | subscribes =>
        rw [position?_subscribe] at hp
        split at hp
        · cases hp
          exact Nat.le_refl _
        · exact kept.behind m p hp
    | sends =>
        exact Nat.le_succ_of_le (kept.behind m p hp)
    | receives listens =>
        rw [position?_set listens,
          kept.positionAfter_eq (kept.behind _ _ listens)] at hp
        split at hp
        · cases hp
          exact Nat.le_refl _
        · exact kept.behind m p hp
    | leaves listens =>
        rw [position?_set listens] at hp
        split at hp
        · cases hp
        · exact kept.behind m p hp
    | _ => exact kept.behind m p hp

theorem runs
    (kept : Kept H s)
    (runs : Runs s H' last) :
    Kept (H ++ H') last :=
  runs.keeps keep kept

/-- Around each step of a history there are what came before it and what comes
after. -/
theorem around
    {steps : List ShutdownStep}
    (split : history {} steps = H ++ (a, answer) :: H') :
    ∃ s next,
      Kept H s ∧
      s.Moves a answer next ∧
      Kept (H ++ [(a, answer)]) next ∧
      Runs next H' (run {} steps).2 := by
  have hruns := runs_history {} steps
  rw [split] at hruns
  obtain ⟨s, hbefore, hlater⟩ := hruns.split
  have kept : Kept H s := start.runs hbefore
  cases hlater with
  | cons moves rest => exact ⟨s, _, kept, moves, kept.keep moves, rest⟩

/-- A handle tells whether the flag has been raised. -/
theorem told
    {steps : List ShutdownStep} {h : Nat} {raised : Bool}
    (split : history {} steps = H ++ (.query h, .flag raised) :: H') :
    raised = true ↔ Raised H := by
  obtain ⟨s, next, kept, moves, -⟩ := around split
  rw [← kept.raised]
  cases moves
  rfl

end Kept

/-! ## Listeners -/

/-- A listener still listens. -/
def Listens (s : Shutdown) (l : Nat) : Prop :=
  ∃ p, s.position? l = some p

/-- A listener would find the message. -/
def Awaits (s : Shutdown) (l : Nat) : Prop :=
  ∃ p, s.position? l = some p ∧ p < s.sent

/-- A handle that is held stays so until it is given back. -/
theorem Moves.holds_next
    {h : Nat}
    (moves : s.Moves a answer next)
    (holds : s.holds h = true)
    (kept : (a, answer) ≠ (.giveBack h, .done)) :
    next.holds h = true := by
  simp only [Shutdown.holds, decide_eq_true_eq] at holds ⊢
  cases moves with
  | duplicates =>
      obtain ⟨hh, -⟩ := List.getElem?_eq_some_iff.mp holds
      rw [List.getElem?_append_left hh]
      exact holds
  | @givesBack h' =>
      have hne : h' ≠ h := by
        rintro rfl
        exact kept rfl
      rw [List.getElem?_set_ne hne]
      exact holds
  | _ => exact holds

/-- A listener listens until it leaves. -/
theorem Moves.listens_next
    (moves : s.Moves a answer next)
    (listens : s.Listens l)
    (stays : (a, answer) ≠ (.leave l, .done)) :
    next.Listens l := by
  obtain ⟨p, hp⟩ := listens
  by_cases leaves : a = .leave l
  · subst leaves
    cases moves with
    | gone missing => simp [finds, hp] at missing
    | leaves => exact absurd rfl stays
  · have hplace := moves.position?_eq hp
    rw [if_neg leaves] at hplace
    split at hplace
    · exact ⟨_, hplace⟩
    · exact ⟨_, hplace⟩

/-- Every handle that remains is held, and every listener that stays listens. -/
structure Present (H : History) (s : Shutdown) : Prop where
  handles : ∀ h, Remains h H → s.holds h = true
  listeners : ∀ l, Stays l H → s.Listens l

namespace Present

theorem start : Present [] {} := by
  constructor
  · rintro h ⟨rfl | ⟨g, mem⟩, -⟩
    · rfl
    · cases mem
  · rintro l ⟨⟨h, mem⟩, -⟩
    cases mem

theorem keep
    (present : Present H s)
    (moves : s.Moves a answer next) :
    Present (H ++ [(a, answer)]) next := by
  constructor
  · rintro h ⟨given, kept⟩
    simp only [List.mem_append, List.mem_singleton, not_or] at given kept
    have old : Remains h H → next.holds h = true := fun remains =>
      moves.holds_next (present.handles h remains) (Ne.symm kept.2)
    rcases given with rfl | ⟨g, mem | new⟩
    · exact old ⟨Or.inl rfl, kept.1⟩
    · exact old ⟨Or.inr ⟨g, mem⟩, kept.1⟩
    · cases new
      cases moves
      simp [holds]
  · rintro l ⟨⟨h, mem⟩, kept⟩
    simp only [List.mem_append, List.mem_singleton, not_or] at mem kept
    rcases mem with mem | new
    · exact moves.listens_next (present.listeners l ⟨⟨h, mem⟩, kept.1⟩)
        (Ne.symm kept.2)
    · cases new
      cases moves
      exact ⟨s.sent, by rw [position?_subscribe, if_pos rfl]⟩

theorem runs
    (present : Present H s)
    (runs : Runs s H' last) :
    Present (H ++ H') last :=
  runs.keeps keep present

end Present

/-- Through a handle that is held everything can be asked. -/
theorem answers_of_holds
    {h : Nat}
    (holds : s.holds h = true) :
    (s.step (.subscribe h)).1 = .listener s.listeners.length ∧
    (s.step (.duplicate h)).1 = .handle s.handles.length ∧
    (s.step (.raise h)).1 = .done ∧
    (s.step (.query h)).1 = .flag s.triggered := by
  simp only [step, holds, if_true, true_and, and_true]
  split
  · rfl
  · rfl

/-- Whoever listens is told something, and can leave. -/
theorem answers_of_listens
    (listens : s.Listens l) :
    (∃ r, (s.step (.receive l)).1 = .reception r) ∧
      (s.step (.leave l)).1 = .done := by
  obtain ⟨p, hp⟩ := listens
  constructor
  · exact ⟨s.reception p, by simp only [step, hp]⟩
  · simp only [step, hp]

/-- A place that was given out, and has no message before it: either somebody
listens there who has heard it or came after it, or nobody does. -/
def Past (s : Shutdown) (l : Nat) : Prop :=
  l < s.listeners.length ∧ ∀ p, s.position? l = some p → 0 < p

/-- A listener who stays waits for the message if it has been waiting and has not
listened, or if the message is sent now. -/
theorem awaits_step
    (kept : Kept H s)
    (moves : s.Moves a answer next)
    (listens : s.Listens l)
    (stays : a ≠ .leave l) :
    next.Listens l ∧
    (next.Awaits l ↔
      (s.Awaits l ∧ a ≠ .receive l) ∨ isSend (a, answer) = true) := by
  obtain ⟨p, hp⟩ := listens
  have hbehind := kept.behind l p hp
  have hplace := moves.position?_eq hp
  rw [if_neg stays] at hplace
  by_cases hlistened : a = .receive l
  · subst hlistened
    rw [if_pos rfl, kept.positionAfter_eq hbehind] at hplace
    refine ⟨⟨_, hplace⟩, ?_⟩
    simp [Awaits, hplace, moves.sent_eq, isSend]
  · rw [if_neg hlistened] at hplace
    refine ⟨⟨p, hplace⟩, ?_⟩
    simp only [Awaits, hp, hplace, moves.sent_eq, Option.some.injEq,
      exists_eq_left', hlistened, ne_eq, not_false_eq_true, and_true]
    by_cases hnow : isSend (a, answer) = true
    · simp only [hnow, if_true, or_true, iff_true]
      omega
    · simp [hnow]

/-- A listener who stays waits for the message exactly if it has not listened
since it was sent. -/
theorem awaits_runs
    (kept : Kept H s)
    (runs : Runs s H' last)
    (listens : s.Listens l)
    (stays : ∀ x ∈ H', x.1 ≠ .leave l) :
    last.Listens l ∧
    (last.Awaits l ↔
      (s.Awaits l ∧ ∀ x ∈ H', x.1 ≠ .receive l) ∨ Unheard l H') := by
  induction runs generalizing H with
  | nil =>
      refine ⟨listens, ?_⟩
      simp [Unheard]
  | @cons s next last a answer H' moves rest ih =>
      obtain ⟨hnow, hlater⟩ := List.forall_mem_cons.mp stays
      obtain ⟨hnext, hstep⟩ := awaits_step kept moves listens hnow
      obtain ⟨hlast, hrun⟩ := ih (kept.keep moves) hnext hlater
      refine ⟨hlast, ?_⟩
      rw [hrun, hstep, unheard_cons, List.forall_mem_cons]
      tauto

/-- What is past stays past. -/
theorem Past.step
    (past : s.Past l)
    (moves : s.Moves a answer next) :
    next.Past l := by
  obtain ⟨hlength, hheard⟩ := past
  cases moves with
  | subscribes =>
      constructor
      · simp only [List.length_append]
        omega
      · intro p hp
        rw [position?_subscribe, if_neg (Nat.ne_of_lt hlength)] at hp
        exact hheard p hp
  | @receives m position listens =>
      constructor
      · simpa using hlength
      · intro p hp
        rw [position?_set listens] at hp
        split at hp
        case isTrue hl =>
          subst hl
          cases hp
          exact Nat.lt_of_lt_of_le (hheard _ listens)
            (le_positionAfter _ _)
        case isFalse => exact hheard p hp
  | leaves listens =>
      constructor
      · simpa using hlength
      · intro p hp
        rw [position?_set listens] at hp
        split at hp
        · cases hp
        · exact hheard p hp
  | _ => exact ⟨hlength, hheard⟩

/-- Where the message is past it is not found again. -/
theorem signal_not_mem_of_past
    (kept : Kept H s)
    (past : s.Past l)
    (runs : Runs s H' last) :
    (.receive l, .reception .signal) ∉ H' := by
  induction runs generalizing H with
  | nil => simp
  | @cons s next last a answer H' moves rest ih =>
      rw [List.mem_cons, not_or]
      refine ⟨?_, ih (kept.keep moves) (past.step moves)⟩
      rintro ⟨⟩
      rcases moves.received with ⟨-, hgone⟩ | ⟨p, hp, hfound⟩
      · cases hgone
      · have hwaited : p < s.sent :=
          kept.reception_eq_signal_iff.mp
            (ShutdownAnswer.reception.inj hfound).symm
        have hheard := past.2 p hp
        have hone := kept.sent_le_one
        omega

/-- A listener who stays finds something, and the signal exactly if it has not
listened since the message was sent. -/
theorem finds_signal_iff
    {steps : List ShutdownStep} {before mid later : History} {h : Nat}
    (split : history {} steps =
      before ++ (.subscribe h, .listener l) ::
        (mid ++ (.receive l, answer) :: later))
    (stays : ∀ x ∈ mid, x.1 ≠ .leave l) :
    ∃ r, answer = .reception r ∧ (r = .signal ↔ Unheard l mid) := by
  obtain ⟨s, next, -, moves, knext, hruns⟩ := Kept.around split
  have hplace : next.position? l = some next.sent := by
    cases moves
    rw [position?_subscribe, if_pos rfl]
  have hnone : ¬ next.Awaits l := by
    rintro ⟨p, hp, hlt⟩
    rw [hplace] at hp
    cases hp
    exact Nat.lt_irrefl _ hlt
  obtain ⟨now, hmid, hrest⟩ := hruns.split
  obtain ⟨⟨p, hp⟩, hawaits⟩ := awaits_runs knext hmid ⟨_, hplace⟩ stays
  simp only [hnone, false_and, false_or] at hawaits
  cases hrest with
  | cons hreceive =>
      rcases hreceive.received with ⟨hmissing, -⟩ | ⟨q, hq, hfound⟩
      · rw [hmissing] at hp
        cases hp
      · refine ⟨_, hfound, ?_⟩
        rw [(knext.runs hmid).reception_eq_signal_iff, ← hawaits]
        simp [Awaits, hq]

/-- Who begins to listen after the message never finds it. -/
theorem signal_not_mem_of_late
    {steps : List ShutdownStep} {before later : History} {h : Nat}
    (split : history {} steps =
      before ++ (.subscribe h, .listener l) :: later)
    (sent : Sent before) :
    (.receive l, .reception .signal) ∉ later := by
  obtain ⟨s, next, kept, moves, knext, hruns⟩ := Kept.around split
  refine signal_not_mem_of_past knext ?_ hruns
  have hsent := kept.sent_iff.mp sent
  cases moves
  refine ⟨by simp, ?_⟩
  intro p hp
  rw [position?_subscribe, if_pos rfl] at hp
  cases hp
  omega

/-- Who finds the signal finds it after it was sent, and never again. -/
theorem sent_of_signal
    {steps : List ShutdownStep} {before later : History}
    (split : history {} steps =
      before ++ (.receive l, .reception .signal) :: later) :
    Raised before ∧ Sent before ∧
      (.receive l, .reception .signal) ∉ later := by
  obtain ⟨s, next, kept, moves, knext, hruns⟩ := Kept.around split
  rcases moves.received with ⟨-, hgone⟩ | ⟨p, hp, hfound⟩
  · cases hgone
  · have hsignal := (ShutdownAnswer.reception.inj hfound).symm
    have hwaited := kept.reception_eq_signal_iff.mp hsignal
    have hone := kept.sent_le_one
    have sent : Sent before := kept.sent_iff.mpr (by omega)
    refine ⟨kept.raised_of_sent sent, sent,
      signal_not_mem_of_past knext ?_ hruns⟩
    have hplace := moves.position?_eq hp
    simp only [reduceCtorEq, if_false, if_true, hsignal, positionAfter]
      at hplace
    refine ⟨lt_of_position? hplace, ?_⟩
    intro q hq
    rw [hplace] at hq
    cases hq
    omega

theorem lagged_not_mem
    (steps : List ShutdownStep) (missed : Nat) :
    (.receive l, .reception (.lagged missed)) ∉ history {} steps := by
  intro mem
  obtain ⟨before, later, split⟩ := List.mem_iff_append.mp mem
  obtain ⟨s, next, kept, moves, -⟩ := Kept.around split
  rcases moves.received with ⟨-, hgone⟩ | ⟨p, -, hfound⟩
  · cases hgone
  · exact kept.reception_ne_lagged
      (ShutdownAnswer.reception.inj hfound).symm

/-- A flag that was up is never told to be down. -/
theorem flag_false_not_mem
    {steps : List ShutdownStep} {before later : History} {h h' : Nat}
    (split : history {} steps = before ++ (.query h, .flag true) :: later) :
    (.query h', .flag false) ∉ later := by
  intro mem
  obtain ⟨mid, rest, rfl⟩ := List.mem_iff_append.mp mem
  have hearlier : Raised before := (Kept.told split).mp rfl
  have hlater :=
    Kept.told (H := before ++ (.query h, .flag true) :: mid)
      (by rw [List.append_assoc]; exact split)
  exact absurd (hlater.mpr (raised_append.mpr (Or.inl hearlier)))
    Bool.false_ne_true

/--
**A shutdown signals once**, for any run of steps of its handles and of its
listeners, in which flag and message are separate steps, from a new shutdown.

* The message is sent at most once, and only after the flag was raised.  Once it
  was raised, the message has been sent or can be.
* A listener who stays always finds something, and it finds the signal exactly if
  the message was sent after it began to listen and it has not listened since:
  so at its first look after the message, however late, whatever else was
  triggered and whether or not any handle is left.
* Who begins to listen after the message never finds the signal.
* Who finds the signal finds it after the flag was raised and after the message
  was sent, and never again.
* Nobody is ever told that they missed a message.
* A handle tells whether the flag was raised, and if it was, no handle ever tells
  otherwise.
* Through a handle that was not given back one can begin to listen, have another
  handle, raise the flag and ask for it, at any time; and a listener that has not
  left is told something whenever it looks, and can leave.
-/
theorem signals_once (steps : List ShutdownStep) :
    let H := history {} steps
    let last := (run {} steps).2
    H.countP isSend ≤ 1 ∧
    (Sent H → Raised H) ∧
    (Raised H → Sent H ∨ (last.step (.send 0)).1 = .done) ∧
    (∀ (before mid later : History) (h l : Nat) (answer : ShutdownAnswer),
      H = before ++ (.subscribe h, .listener l) ::
        (mid ++ (.receive l, answer) :: later) →
      (∀ x ∈ mid, x.1 ≠ .leave l) →
        ∃ r, answer = .reception r ∧ (r = .signal ↔ Unheard l mid)) ∧
    (∀ (before later : History) (h l : Nat),
      H = before ++ (.subscribe h, .listener l) :: later →
      Sent before →
        (.receive l, .reception .signal) ∉ later) ∧
    (∀ (before later : History) (l : Nat),
      H = before ++ (.receive l, .reception .signal) :: later →
        Raised before ∧ Sent before ∧
        (.receive l, .reception .signal) ∉ later) ∧
    (∀ l missed, (.receive l, .reception (.lagged missed)) ∉ H) ∧
    (∀ (before later : History) (h : Nat) (raised : Bool),
      H = before ++ (.query h, .flag raised) :: later →
        (raised = true ↔ Raised before) ∧
        (raised = true → ∀ h', (.query h', .flag false) ∉ later)) ∧
    (∀ h, Remains h H →
      (last.step (.subscribe h)).1 = .listener last.listeners.length ∧
      (last.step (.duplicate h)).1 = .handle last.handles.length ∧
      (last.step (.raise h)).1 = .done ∧
      (last.step (.query h)).1 = .flag last.triggered) ∧
    (∀ l, Stays l H →
      (∃ r, (last.step (.receive l)).1 = .reception r) ∧
        (last.step (.leave l)).1 = .done) := by
  intro H last
  have kept : Kept H last := Kept.start.runs (runs_history {} steps)
  have present : Present H last :=
    Present.start.runs (runs_history {} steps)
  refine ⟨?once, kept.raised_of_sent, ?owed, ?finds, ?late, ?found,
    ?missed, ?flag, ?handles, ?listeners⟩
  case once =>
    rw [kept.sends_eq]
    exact kept.sent_le_one
  case owed =>
    intro raised
    have hbalance := kept.balance
    rw [if_pos (kept.raised.mpr raised)] at hbalance
    rw [kept.sent_iff]
    by_cases sent : last.sent = 1
    · exact Or.inl sent
    · have hdue : 0 < last.firing.length := by omega
      exact Or.inr (by simp only [step, if_pos hdue])
  case finds =>
    intro before mid later h l answer split stays
    exact finds_signal_iff split stays
  case late =>
    intro before later h l split sent
    exact signal_not_mem_of_late split sent
  case found =>
    intro before later l split
    exact sent_of_signal split
  case missed =>
    intro l missed
    exact lagged_not_mem steps missed
  case flag =>
    intro before later h raised split
    refine ⟨Kept.told split, ?_⟩
    rintro rfl h'
    exact flag_false_not_mem split
  case handles =>
    intro h remains
    exact answers_of_holds (present.handles h remains)
  case listeners =>
    intro l stays
    exact answers_of_listens (present.listeners l stays)

/-- The flag is raised twice.  One listener looks when the handle it came by is
gone, and finds the signal; another came too late, and never does. -/
theorem signals_once_late_listener :
    let before : List ShutdownStep :=
      [.duplicate 0, .subscribe 0, .raise 0, .raise 1, .send 0]
    let later : List ShutdownStep :=
      [.giveBack 0, .receive 0, .receive 0, .receive 1]
    let steps := before ++ .subscribe 1 :: later
    let H := history {} steps
    let last := (run {} steps).2
    (run {} steps).1 =
      [.handle 1, .listener 0, .done, .done, .done,
        .listener 1,
        .done, .reception .signal, .reception .empty, .reception .empty] ∧
    H.countP isSend ≤ 1 ∧
    (.receive 1, .reception .signal) ∉ H.drop 6 ∧
    (last.step (.raise 1)).1 = .done ∧
    ∃ r, (last.step (.receive 1)).1 = .reception r := by
  intro before later steps H last
  obtain ⟨hone, -, -, -, hlate, -, -, -, hhandles, hlisteners⟩ :=
    signals_once steps
  have hnever := hlate (H.take 5) (H.drop 6) 1 1 (by decide)
    ⟨0, by decide⟩
  have hremains : Remains 1 H := ⟨Or.inr ⟨0, by decide⟩, by decide⟩
  have hstays : Stays 1 H := ⟨⟨1, by decide⟩, by decide⟩
  exact
    ⟨by decide, hone, hnever, (hhandles 1 hremains).2.2.1,
      (hlisteners 1 hstays).1⟩

end Shutdown

end StreamServer
