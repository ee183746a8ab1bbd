import Mathlib
import StreamServer.Proofs.LineHandles
import StreamServer.Proofs.Relay
import StreamServer.Sink.Writer
import StreamServer.Transport.Script

/-!
# The handles of a session

Every handle of a session is made once, held by a connection or an interrupter,
and given back once.  An `Account` says so of all handles made and all calls
made up to some moment; it is kept by every turnover of handles, and every step
of a session is one.  So it is kept by every run, whatever the transports answer
and in whatever order the steps come, and the sink has no part in it.
-/

namespace StreamServer

/--
The account of handles: those that were made, the calls that were made on them,
and those that are held now.
-/
structure Account
    (created : List Handle)
    (calls : CallLog)
    (held : List Handle) : Prop where
  distinct : created.Nodup
  balance : created.Perm (calls.released ++ held)
  owned : ∀ x ∈ calls, x.1 ∈ created
  order : calls.NoneAfterRelease
  parted : ∀ h answer, h.serial = 0 →
    (h, .shutdown answer) ∈ calls → (h, .release) ∈ calls

namespace Account

variable {created held : List Handle} {calls : CallLog}

theorem start :
    Account [] [] [] := by
  refine ⟨List.nodup_nil, List.Perm.refl _, ?_, List.Pairwise.nil, ?_⟩
  · intro x mem
    cases mem
  · intro h answer _ mem
    cases mem

/-- What is held was made and has not been given back. -/
theorem of_mem_held
    (account : Account created calls held)
    {h : Handle}
    (mem : h ∈ held) :
    h ∈ created ∧ (h, .release) ∉ calls := by
  have hdistinct := account.balance.nodup_iff.mp account.distinct
  rw [List.nodup_append] at hdistinct
  obtain ⟨-, -, hdisjoint⟩ := hdistinct
  constructor
  · rw [account.balance.mem_iff]
    exact List.mem_append_right _ mem
  · intro hreleased
    exact hdisjoint h (CallLog.mem_released.mpr hreleased) h mem rfl

/-- No handle is given back twice. -/
theorem nodup_released
    (account : Account created calls held) :
    calls.released.Nodup := by
  have hdistinct := account.balance.nodup_iff.mp account.distinct
  rw [List.nodup_append] at hdistinct
  exact hdistinct.1

/-- The account is kept by a turnover whose new handles were not there: a handle
given back before is then neither held nor new. -/
theorem keep
    {new after : List Handle} {more : CallLog}
    (account : Account created calls held)
    (turnover : Turnover held new more after)
    (fresh : ∀ h ∈ new, h ∉ created)
    (nodup : new.Nodup) :
    Account (created ++ new) (calls ++ more) after := by
  refine ⟨?_, ?_, ?_, ?_, ?_⟩
  · rw [List.nodup_append]
    refine ⟨account.distinct, nodup, ?_⟩
    rintro h hold h' hnew rfl
    exact fresh h hnew hold
  · have hold := account.balance
    have hnow := turnover.balance
    rw [List.perm_iff_count] at hold hnow ⊢
    intro h
    have hold := hold h
    have hnow := hnow h
    simp only [CallLog.released_append, List.count_append]
      at hold hnow ⊢
    omega
  · intro x mem
    rcases List.mem_append.mp mem with hin | hin
    · exact List.mem_append_left _ (account.owned x hin)
    · rcases List.mem_append.mp (turnover.owned x hin) with hx | hx
      · exact List.mem_append_left _ (account.of_mem_held hx).1
      · exact List.mem_append_right _ hx
  · refine List.pairwise_append.mpr
      ⟨account.order, turnover.order, ?_⟩
    rintro ⟨h, k⟩ hx y hy hrelease rfl
    simp only at hrelease
    subst hrelease
    rcases List.mem_append.mp (turnover.owned y hy) with hheld | hnew
    · exact (account.of_mem_held hheld).2 hx
    · exact fresh y.1 hnew (account.owned (y.1, .release) hx)
  · intro h answer first mem
    rcases List.mem_append.mp mem with hin | hin
    · exact List.mem_append_left _
        (account.parted h answer first hin)
    · exact List.mem_append_right _
        (turnover.parted h answer first hin)

end Account

namespace CallLog

/-- How often a handle is shut down. -/
def shutdowns (h : Handle) (calls : CallLog) : Nat :=
  calls.countP fun x => decide (x.1 = h) && x.2.isShutdown

/-- A handle that is not shut down. -/
theorem shutdowns_eq_zero
    {h : Handle} {calls : CallLog}
    (unshut : ∀ answer, (h, .shutdown answer) ∉ calls) :
    shutdowns h calls = 0 := by
  unfold shutdowns
  rw [List.countP_eq_zero]
  rintro ⟨h', k⟩ mem hshut
  rw [Bool.and_eq_true, decide_eq_true_eq] at hshut
  obtain ⟨rfl, hk⟩ := hshut
  cases k with
  | shutdown answer => exact unshut answer mem
  | _ => cases hk

/-- A first handle that is given back is shut down, if at all, where it is given
back: not before, for then it would have been given back before, and not after. -/
theorem shutdowns_of_release
    {before now later : CallLog}
    (order : NoneAfterRelease (before ++ (now ++ later)))
    {h : Handle}
    (parted : ∀ answer,
      (h, .shutdown answer) ∈ before → (h, .release) ∈ before)
    (mem : (h, .release) ∈ now) :
    shutdowns h (before ++ (now ++ later)) = shutdowns h now := by
  unfold NoneAfterRelease at order
  rw [List.pairwise_append] at order
  obtain ⟨-, horder, hbefore⟩ := order
  rw [List.pairwise_append] at horder
  obtain ⟨-, -, hlater⟩ := horder
  have hnone : shutdowns h before = 0 := by
    refine shutdowns_eq_zero ?_
    intro answer hin
    exact hbefore _ (parted answer hin) _
      (List.mem_append_left _ mem) rfl rfl
  have hno_more : shutdowns h later = 0 := by
    refine shutdowns_eq_zero ?_
    intro answer hin
    exact hlater _ mem _ hin rfl rfl
  unfold shutdowns at hnone hno_more ⊢
  rw [List.countP_append, List.countP_append, hnone, hno_more]
  omega

end CallLog

namespace Session

variable {σ ω : Type}

/-- The handles that lines hold, if the first of them has this number. -/
def heldFrom (n : Nat) : List (Line σ) → List Handle
  | [] => []
  | l :: rest => l.held n ++ heldFrom (n + 1) rest

/-- The handles that the lines of a session hold. -/
def held (s : Session σ ω) : List Handle :=
  heldFrom 0 s.lines

theorem heldFrom_append
    (n : Nat) (left right : List (Line σ)) :
    heldFrom n (left ++ right) =
      heldFrom n left ++ heldFrom (n + left.length) right := by
  induction left generalizing n with
  | nil => rfl
  | cons l rest ih =>
      simp only [List.cons_append, heldFrom, ih, List.length_cons,
        List.append_assoc]
      rw [Nat.add_assoc, Nat.add_comm 1]

/-- Nothing is held where every connection is closed or gone and every
interrupter is gone. -/
theorem heldFrom_eq_nil
    {n : Nat} {lines : List (Line σ)}
    (gone : ∀ l ∈ lines,
      (∀ c, l.connection = some c → c.state = .closed) ∧
      (∀ i, some i ∉ l.interrupters)) :
    heldFrom n lines = [] := by
  induction lines generalizing n with
  | nil => rfl
  | cons l rest ih =>
      obtain ⟨hclosed, hnone⟩ := gone l List.mem_cons_self
      have hrest :=
        ih (n := n + 1)
          (fun k hk => gone k (List.mem_cons_of_mem _ hk))
      rw [heldFrom, hrest, Line.held_eq_nil hclosed hnone]
      rfl

/-- All lines are sound. -/
def Sound (lines : List (Line σ)) : Prop :=
  ∀ (i : Nat) (l : Line σ), lines[i]? = some l → l.Sound i

/--
What is known of the lines of a session and of all that was done on them: the
lines are sound, they count the handles that were made, and the account of these
handles is right.
-/
structure Ledger
    (lines : List (Line σ))
    (created : List Handle)
    (calls : CallLog) : Prop where
  sound : Sound lines
  known : ∀ h ∈ created, ∃ l,
    lines[h.line]? = some l ∧ h.serial < l.handles
  account : Account created calls (heldFrom 0 lines)

theorem Ledger.start :
    Ledger ([] : List (Line σ)) [] [] := by
  refine ⟨?_, by simp, Account.start⟩
  intro i l hl
  cases hl

/-- A place in a list with one more at its end. -/
theorem getElem?_concat
    {α : Type} {xs : List α} {x y : α} {i : Nat}
    (h : (xs ++ [x])[i]? = some y) :
    xs[i]? = some y ∨ (i = xs.length ∧ y = x) := by
  rw [List.getElem?_append] at h
  split at h
  · exact Or.inl h
  · next hi =>
      obtain ⟨hlast, hy⟩ := List.getElem?_eq_some_iff.mp h
      rw [List.length_singleton] at hlast
      right
      refine ⟨by omega, ?_⟩
      rw [← hy, List.getElem_singleton]

variable [Transport σ]

/-- The handles that a step makes: the first one of a line that is opened, even
if no connection comes of it, or that of a new interrupter. -/
def created (lines : List (Line σ)) : SessionStep σ → List Handle
  | .open _ _ => [⟨lines.length, 0⟩]
  | .on i s =>
      match lines[i]? with
      | none => []
      | some l => l.created s

/--
What a step of a session does with the handles: which are new, which calls are
made, and what becomes of the lines.
-/
inductive Advances (lines : List (Line σ)) :
    SessionStep σ → List Handle → CallLog → List (Line σ) → Prop
  | opens
      {c : Connection} {settings : ConnectionSettings} {t : σ}
      (made : c.MadeOf ⟨lines.length, 0⟩ settings t) :
      Advances lines (.open settings t) [⟨lines.length, 0⟩]
        [(⟨lines.length, 0⟩, .peer (.ok c.origin))]
        (lines ++ [⟨t, 1, some c, []⟩])
  | failsToOpen
      {settings : ConnectionSettings} {t : σ} {f : Fault}
      (no_peer : Transport.peer t = .error f) :
      Advances lines (.open settings t) [⟨lines.length, 0⟩]
        [(⟨lines.length, 0⟩, .peer (.error f)),
          (⟨lines.length, 0⟩, .release)]
        (lines ++ [⟨Transport.release t, 1, none, []⟩])
  | misses
      (i : Nat) (s : LineStep) :
      Advances lines (.on i s) [] [] lines
  | steps
      {i : Nat} {l : Line σ}
      (s : LineStep)
      (there : lines[i]? = some l) :
      Advances lines (.on i s) (l.created s)
        (l.step s).2.2.calls
        (lines.set i (l.step s).2.1)

theorem advances_advance
    (lines : List (Line σ)) (a : SessionStep σ) :
    Advances lines a (created lines a)
      (advance lines a).2.2.calls (advance lines a).2.1 := by
  cases a with
  | «open» settings t =>
      rcases Line.open_cases lines.length settings t with
        ⟨c, r, hmade, hopen⟩ | ⟨f, hpeer, hopen⟩
      · simp only [advance, hopen, created]
        exact .opens hmade
      · simp only [advance, hopen, created]
        exact .failsToOpen hpeer
  | on i s =>
      cases hl : lines[i]? with
      | none =>
          simp only [advance, created, hl]
          exact .misses i s
      | some l =>
          simp only [advance, created, hl]
          exact .steps s hl

namespace Advances

variable {lines lines' : List (Line σ)} {a : SessionStep σ}
variable {new : List Handle} {calls : CallLog}

theorem sound
    (advances : Advances lines a new calls lines')
    (sound : Sound lines) :
    Sound lines' := by
  intro i l hl
  cases advances with
  | @opens c settings t made =>
      rcases getElem?_concat hl with hold | ⟨rfl, rfl⟩
      · exact sound i l hold
      · refine ⟨?_, by simp, Nat.one_pos⟩
        intro d hd
        cases hd
        exact Or.inl ⟨made.live, made.owns⟩
  | failsToOpen no_peer =>
      rcases getElem?_concat hl with hold | ⟨rfl, rfl⟩
      · exact sound i l hold
      · exact ⟨by simp, by simp, Nat.one_pos⟩
  | misses i' s => exact sound i l hl
  | @steps j k s there =>
      rw [List.getElem?_set] at hl
      split at hl
      · next hij =>
          subst hij
          split at hl
          · cases hl
            exact (sound j k there).step s
          · cases hl
      · exact sound i l hl

theorem turnover
    (advances : Advances lines a new calls lines')
    (sound : Sound lines) :
    Turnover (heldFrom 0 lines) new calls (heldFrom 0 lines') := by
  cases advances with
  | @opens c settings t made =>
      have hheld :
          heldFrom 0 (lines ++ [⟨t, 1, some c, []⟩]) =
            heldFrom 0 lines ++ [⟨lines.length, 0⟩] := by
        simp [heldFrom_append, heldFrom, Line.held, made.live]
      rw [hheld]
      exact .of_new (by simp) (by simp) rfl
  | @failsToOpen settings t f no_peer =>
      have hheld :
          heldFrom 0 (lines ++ [⟨Transport.release t, 1, none, []⟩]) =
            heldFrom 0 lines := by
        simp [heldFrom_append, heldFrom, Line.held]
      rw [hheld]
      refine ⟨?_, List.perm_append_comm, ?_, ?_⟩
      · intro x mem
        simp only [List.mem_cons, List.not_mem_nil, or_false] at mem
        rcases mem with rfl | rfl <;> simp
      · simp [CallLog.NoneAfterRelease]
      · intro h answer _ mem
        simp only [List.mem_cons, List.not_mem_nil, or_false] at mem
        rcases mem with heq | heq <;> cases heq
  | misses i s => exact .of_uses (by simp) (by simp) (by simp)
  | @steps i l s there =>
      obtain ⟨hi, hget⟩ := List.getElem?_eq_some_iff.mp there
      obtain ⟨left, right, hsplit, rfl, hset⟩ :
          ∃ left right,
            lines = left ++ lines[i] :: right ∧
            left.length = i ∧
            lines.set i (l.step s).2.1 =
              left ++ (l.step s).2.1 :: right :=
        List.exists_of_set hi
      rw [hget] at hsplit
      have hline := (Line.moves_step (sound _ l there) s).turnover
      have hall :=
        hline.frame (heldFrom 0 left)
          (heldFrom (left.length + 1) right)
      rw [hset, hsplit]
      simpa [heldFrom_append, heldFrom] using hall

/-- No line goes away, and none has fewer handles than before. -/
theorem handles_le
    (advances : Advances lines a new calls lines')
    (sound : Sound lines)
    {i : Nat} {l : Line σ}
    (hl : lines[i]? = some l) :
    ∃ l', lines'[i]? = some l' ∧ l.handles ≤ l'.handles := by
  have hi := (List.getElem?_eq_some_iff.mp hl).1
  cases advances with
  | opens made =>
      refine ⟨l, ?_, Nat.le_refl _⟩
      rw [List.getElem?_append_left hi, hl]
  | failsToOpen no_peer =>
      refine ⟨l, ?_, Nat.le_refl _⟩
      rw [List.getElem?_append_left hi, hl]
  | misses i' s => exact ⟨l, hl, Nat.le_refl _⟩
  | @steps j k s there =>
      by_cases hij : j = i
      · subst hij
        cases there.symm.trans hl
        refine ⟨(l.step s).2.1, ?_, ?_⟩
        · exact List.getElem?_set_self hi
        · exact (Line.moves_step (sound j l there) s).handles_le
      · refine ⟨l, ?_, Nat.le_refl _⟩
        rw [List.getElem?_set_ne hij, hl]

/-- A new handle is counted by its line afterwards, and was not before. -/
theorem of_mem_new
    (advances : Advances lines a new calls lines')
    (sound : Sound lines)
    {h : Handle}
    (mem : h ∈ new) :
    (∃ l, lines'[h.line]? = some l ∧ h.serial < l.handles) ∧
    (∀ l, lines[h.line]? = some l → l.handles ≤ h.serial) := by
  cases advances with
  | opens made =>
      rw [List.mem_singleton.mp mem]
      refine ⟨⟨_, List.getElem?_concat_length, Nat.one_pos⟩, ?_⟩
      intro l hl
      rw [List.getElem?_eq_none (Nat.le_refl _)] at hl
      cases hl
  | failsToOpen no_peer =>
      rw [List.mem_singleton.mp mem]
      refine ⟨⟨_, List.getElem?_concat_length, Nat.one_pos⟩, ?_⟩
      intro l hl
      rw [List.getElem?_eq_none (Nat.le_refl _)] at hl
      cases hl
  | misses i s => cases mem
  | @steps i l s there =>
      have hi := (List.getElem?_eq_some_iff.mp there).1
      obtain ⟨rfl, hlt⟩ :=
        (Line.moves_step (sound i l there) s).of_mem_new mem
      refine ⟨⟨_, List.getElem?_set_self hi, hlt⟩, ?_⟩
      intro k hk
      cases there.symm.trans hk
      exact Nat.le_refl _

/-- The first handle of a line is given back by closing its connection, right
after it is shut down, by dropping the connection, or because there was no peer
to make one. -/
theorem first_released
    (advances : Advances lines a new calls lines')
    (sound : Sound lines)
    {h : Handle}
    (first : h.serial = 0)
    (mem : (h, .release) ∈ calls) :
    (a = .on h.line .close ∧
      ∃ answer, calls = [(h, .shutdown answer), (h, .release)]) ∨
    (a = .on h.line .drop ∧ calls = [(h, .release)]) ∨
    (∃ settings t f,
      a = .open settings t ∧
      Transport.peer t = .error f ∧
      calls = [(h, .peer (.error f)), (h, .release)]) := by
  cases advances with
  | opens made => cases List.mem_singleton.mp mem
  | @failsToOpen settings t f no_peer =>
      simp only [List.mem_cons, Prod.mk.injEq, List.not_mem_nil,
        or_false] at mem
      rcases mem with ⟨-, hne⟩ | ⟨rfl, -⟩
      · cases hne
      · exact Or.inr (Or.inr ⟨settings, t, f, rfl, no_peer, rfl⟩)
  | misses i s => cases mem
  | @steps i l s there =>
      obtain ⟨rfl, ⟨rfl, hcalls⟩ | ⟨rfl, hcalls⟩⟩ :=
        (Line.moves_step (sound i l there) s).first_released first mem
      · exact Or.inl ⟨rfl, hcalls⟩
      · exact Or.inr (Or.inl ⟨rfl, hcalls⟩)

theorem nodup_new
    (advances : Advances lines a new calls lines')
    (sound : Sound lines) :
    new.Nodup := by
  cases advances with
  | opens made => simp
  | failsToOpen no_peer => simp
  | misses i s => exact List.nodup_nil
  | @steps i l s there =>
      exact (Line.moves_step (sound i l there) s).nodup_new

end Advances

/-! ## Runs -/

/-- The ledger is kept by every step: a line has counted every handle made on it,
but not yet a new one. -/
theorem Ledger.keep
    {lines lines' : List (Line σ)}
    {made new : List Handle} {calls more : CallLog}
    {a : SessionStep σ}
    (ledger : Ledger lines made calls)
    (advances : Advances lines a new more lines') :
    Ledger lines' (made ++ new) (calls ++ more) := by
  have hsound := ledger.sound
  have hfresh : ∀ h ∈ new, h ∉ made := by
    intro h hnew hold
    obtain ⟨l, hl, hlt⟩ := ledger.known h hold
    have hle := (advances.of_mem_new hsound hnew).2 l hl
    omega
  refine
    ⟨advances.sound hsound, ?_,
      ledger.account.keep (advances.turnover hsound) hfresh
        (advances.nodup_new hsound)⟩
  intro h mem
  rcases List.mem_append.mp mem with hold | hnew
  · obtain ⟨l, hl, hlt⟩ := ledger.known h hold
    obtain ⟨l', hl', hle⟩ := advances.handles_le hsound hl
    exact ⟨l', hl', by omega⟩
  · exact (advances.of_mem_new hsound hnew).1

variable [Writer ω]

/-- The handles that are made in a run, in order. -/
def createdIn (s : Session σ ω) : List (SessionStep σ) → List Handle
  | [] => []
  | a :: rest => created s.lines a ++ (s.step a).2.1.createdIn rest

/-- The calls that are seen of a run, in order. -/
def callsIn (s : Session σ ω) (steps : List (SessionStep σ)) :
    CallLog :=
  (s.run steps).2.2.flatMap Trace.calls

def after (s : Session σ ω) (steps : List (SessionStep σ)) :
    Session σ ω :=
  (s.run steps).2.1

/-- The sink sees a step, and has no part in it. -/
theorem advances_step
    (s : Session σ ω) (a : SessionStep σ) :
    Advances s.lines a (created s.lines a) (s.step a).2.2.calls
      (s.step a).2.1.lines := by
  have hcalls :
      (s.step a).2.2.calls = (advance s.lines a).2.2.calls :=
    Board.calls_relay _ _ _
  rw [hcalls]
  exact advances_advance s.lines a

theorem Ledger.run
    {s : Session σ ω} {made : List Handle} {calls : CallLog}
    (ledger : Ledger s.lines made calls)
    (steps : List (SessionStep σ)) :
    Ledger (s.after steps).lines (made ++ s.createdIn steps)
      (calls ++ s.callsIn steps) := by
  induction steps generalizing s made calls with
  | nil => simpa [after, createdIn, callsIn, Session.run] using ledger
  | cons a rest ih =>
      have hnext := ih (ledger.keep (s.advances_step a))
      rw [List.append_assoc, List.append_assoc] at hnext
      exact hnext

theorem callsIn_append
    (s : Session σ ω) (before later : List (SessionStep σ)) :
    s.callsIn (before ++ later) =
      s.callsIn before ++ (s.after before).callsIn later := by
  induction before generalizing s with
  | nil => rfl
  | cons a rest ih =>
      have hrest := ih (s.step a).2.1
      have hcons : ∀ steps,
          s.callsIn (a :: steps) =
            (s.step a).2.2.calls ++ (s.step a).2.1.callsIn steps := by
        intro steps
        rfl
      rw [List.cons_append, hcons, hcons, hrest, List.append_assoc]
      rfl

/-- Without a peer a line is not opened: the error says why, and the peer is all
that was asked for before the handle was given back. -/
theorem step_open_of_no_peer
    (s : Session σ ω)
    (settings : ConnectionSettings)
    {t : σ} {f : Fault}
    (no_peer : Transport.peer t = .error f) :
    (s.step (.open settings t)).1 =
      .opened (.error (.peerUnknown f)) ∧
    (s.step (.open settings t)).2.2 =
      [.call ⟨s.lines.length, 0⟩ (.peer (.error f)),
        .call ⟨s.lines.length, 0⟩ .release] := by
  rcases Line.open_cases s.lines.length settings t with
    ⟨c, r, hmade, -⟩ | ⟨f', hpeer, hopen⟩
  · rw [hmade.origin_eq] at no_peer
    cases no_peer
  · rw [hpeer] at no_peer
    cases no_peer
    constructor
    · simp only [step, advance, hopen]
    · simp only [step, advance, hopen]
      rfl

/-- The calls of a step on a line that is there are those of the line. -/
theorem calls_step_on
    {s : Session σ ω} {i : Nat} {l : Line σ}
    (there : s.lines[i]? = some l)
    (a : LineStep) :
    (s.step (.on i a)).2.2.calls = (l.step a).2.2.calls := by
  have hcalls :
      (s.step (.on i a)).2.2.calls = (advance s.lines (.on i a)).2.2.calls :=
    Board.calls_relay _ _ _
  rw [hcalls]
  simp only [advance, there]

/-- How the first handle of a line is given back, and how often it is shut down
in the whole run. -/
theorem first_released_in
    {s : Session σ ω} {made : List Handle} {calls : CallLog}
    (ledger : Ledger s.lines made calls)
    (before : List (SessionStep σ)) (a : SessionStep σ)
    (later : List (SessionStep σ))
    {h : Handle}
    (first : h.serial = 0)
    (mem : (h, .release) ∈ ((s.after before).step a).2.2.calls) :
    (a = .on h.line .close ∧
      (∃ answer,
        ((s.after before).step a).2.2.calls =
          [(h, .shutdown answer), (h, .release)]) ∧
      CallLog.shutdowns h
        (calls ++ s.callsIn (before ++ a :: later)) = 1) ∨
    ((a = .on h.line .drop ∨
        ∃ settings t f,
          a = .open settings t ∧ Transport.peer t = .error f) ∧
      CallLog.shutdowns h
        (calls ++ s.callsIn (before ++ a :: later)) = 0) := by
  have hledger := ledger.run before
  have hwhole := (ledger.run (before ++ a :: later)).account.order
  have hcalls :
      calls ++ s.callsIn (before ++ a :: later) =
        (calls ++ s.callsIn before) ++
          (((s.after before).step a).2.2.calls ++
            ((s.after before).step a).2.1.callsIn later) := by
    rw [callsIn_append, List.append_assoc]
    rfl
  rw [hcalls] at hwhole ⊢
  have hcount :=
    CallLog.shutdowns_of_release hwhole
      (fun answer => hledger.account.parted h answer first) mem
  rw [hcount]
  rcases (advances_step (s.after before) a).first_released
      hledger.sound first mem with
    ⟨ha, answer, hnow⟩ | ⟨ha, hnow⟩ |
      ⟨settings, t, f, ha, hpeer, hnow⟩
  · left
    refine ⟨ha, ⟨answer, hnow⟩, ?_⟩
    rw [hnow]
    simp [CallLog.shutdowns, Call.isShutdown]
  · right
    refine ⟨Or.inl ha, ?_⟩
    rw [hnow]
    simp [CallLog.shutdowns, Call.isShutdown]
  · right
    refine ⟨Or.inr ⟨settings, t, f, ha, hpeer⟩, ?_⟩
    rw [hnow]
    simp [CallLog.shutdowns, Call.isShutdown]

/--
**The handles of a session**, for any number of lines over any transports, any
sink, and any steps in any order.

* No two handles that are made are the same, and those that are not given back
  are the ones held: one for each connection that is open, and one for each
  interrupter that is still there.
* No handle is given back twice, every call is made on a handle that was made,
  and none on a handle that was given back.
* Without a peer no connection is opened: the error says why, the peer is all
  that is asked for, the handle is given back, and nothing is emitted.
* The first handle of a line is given back by closing its connection, and then
  it is shut down once in the whole run, right before; or by dropping the
  connection or failing to make one, and then it is never shut down.
* While a connection is open, closing it gives its handle back, and so does
  dropping it; dropping an interrupter that is still there gives its handle back
  and does nothing else.
* When every connection is closed or gone and every interrupter is gone, every
  handle that was made has been given back, once.
-/
theorem handles_accounted
    (b : Board ω) (r : Route)
    (steps : List (SessionStep σ)) :
    let s : Session σ ω := { lines := [], board := b, route := r }
    (s.createdIn steps).Nodup ∧
    (s.createdIn steps).Perm
      (CallLog.released (s.callsIn steps) ++ (s.after steps).held) ∧
    (CallLog.released (s.callsIn steps)).Nodup ∧
    (∀ x ∈ s.callsIn steps, x.1 ∈ s.createdIn steps) ∧
    CallLog.NoneAfterRelease (s.callsIn steps) ∧
    (∀ before a later, steps = before ++ a :: later →
      (∀ settings t f,
        a = .open settings t →
        Transport.peer t = .error f →
        ((s.after before).step a).1 =
          .opened (.error (.peerUnknown f)) ∧
        ((s.after before).step a).2.2 =
          [.call ⟨(s.after before).lines.length, 0⟩
              (.peer (.error f)),
            .call ⟨(s.after before).lines.length, 0⟩ .release]) ∧
      (∀ h : Handle, h.serial = 0 →
        (h, .release) ∈ ((s.after before).step a).2.2.calls →
        (a = .on h.line .close ∧
          (∃ answer,
            ((s.after before).step a).2.2.calls =
              [(h, .shutdown answer), (h, .release)]) ∧
          CallLog.shutdowns h (s.callsIn steps) = 1) ∨
        ((a = .on h.line .drop ∨
            ∃ settings t f,
              a = .open settings t ∧ Transport.peer t = .error f) ∧
          CallLog.shutdowns h (s.callsIn steps) = 0))) ∧
    (∀ i l, (s.after steps).lines[i]? = some l →
      (∀ c, l.connection = some c → c.state = .live →
        ∀ a, a = .close ∨ a = .drop →
          (⟨i, 0⟩, .release) ∈
            ((s.after steps).step (.on i a)).2.2.calls) ∧
      (∀ place it, l.interrupter? place = some it →
        ((s.after steps).step (.on i (.dropInterrupter place))).2.2.calls =
          [(it.handle, .release)])) ∧
    ((∀ l ∈ (s.after steps).lines,
        (∀ c, l.connection = some c → c.state = .closed) ∧
        (∀ i, some i ∉ l.interrupters)) →
      (s.createdIn steps).Perm
        (CallLog.released (s.callsIn steps))) := by
  intro s
  have hstart : Ledger s.lines [] [] := Ledger.start
  have hledger := hstart.run steps
  rw [List.nil_append, List.nil_append] at hledger
  have haccount := hledger.account
  refine
    ⟨haccount.distinct, haccount.balance, haccount.nodup_released,
      haccount.owned, haccount.order, ?made, ?lets_go, ?gone⟩
  case made =>
    rintro before a later rfl
    constructor
    · rintro settings t f rfl hpeer
      exact step_open_of_no_peer _ settings hpeer
    · intro h first mem
      have hparting :=
        first_released_in hstart before a later first mem
      rw [List.nil_append] at hparting
      exact hparting
  case lets_go =>
    intro i l there
    constructor
    · intro c hc live a parts
      rw [calls_step_on there]
      exact (hledger.sound i l there).release_first hc live parts
    · intro place it interrupter
      rw [calls_step_on there]
      exact Line.calls_dropInterrupter interrupter
  case gone =>
    intro gone
    have hbalance := haccount.balance
    rw [heldFrom_eq_nil gone, List.append_nil] at hbalance
    exact hbalance

/-- One line is not opened; on another an interrupter outlives the connection,
which is closed before the interrupter is used and dropped. -/
theorem handles_accounted_interrupter_outlives :
    let t : Script := { descriptor := 42, peer := .ok "[::1]:51000" }
    let s : Session Script LimitedWriter :=
      { lines := [], board := { leaves := [] }, route := .fanout [] }
    let before : List (SessionStep Script) :=
      [.open {} { t with peer := .error (.bare .notConnected) },
        .open {} t, .on 1 .interrupter, .on 1 (.write [1])]
    let later : List (SessionStep Script) :=
      [.on 1 (.interrupt 0), .on 1 .drop, .on 1 (.dropInterrupter 0)]
    let steps := before ++ .on 1 .close :: later
    s.createdIn steps = [⟨0, 0⟩, ⟨1, 0⟩, ⟨1, 1⟩] ∧
    (s.createdIn steps).Perm (CallLog.released (s.callsIn steps)) ∧
    CallLog.NoneAfterRelease (s.callsIn steps) ∧
    (⟨1, 0⟩, .release) ∈ ((s.after before).step (.on 1 .close)).2.2.calls ∧
    CallLog.shutdowns ⟨1, 0⟩ (s.callsIn steps) = 1 := by
  intro t s before later steps
  have there : ∃ l c,
      (s.after before).lines[1]? = some l ∧
      l.connection = some c ∧ c.state = .live :=
    ⟨_, _, by rfl, by rfl, by rfl⟩
  obtain ⟨l, c, hl, hc, live⟩ := there
  obtain ⟨-, -, -, -, -, -, hlets_go, -⟩ :=
    handles_accounted s.board s.route before
  obtain ⟨-, -, -, -, horder, hmade, -, hgone⟩ :=
    handles_accounted s.board s.route steps
  have hrelease := (hlets_go 1 l hl).1 c hc live .close (Or.inl rfl)
  have hlines :
      (s.after steps).lines.map (fun l => (l.connection, l.interrupters)) =
        [(none, []), (none, [none])] := by
    rfl
  refine ⟨by cbv, hgone ?_, horder, hrelease, ?_⟩
  · intro l hl
    have hl := List.mem_map_of_mem
      (f := fun l : Line Script => (l.connection, l.interrupters)) hl
    rw [hlines] at hl
    simp only [List.mem_cons, Prod.mk.injEq, List.not_mem_nil,
      or_false] at hl
    rcases hl with ⟨hnone, hempty⟩ | ⟨hnone, hempty⟩
    · simp [hnone, hempty]
    · simp [hnone, hempty]
  · rcases (hmade before _ later rfl).2 ⟨1, 0⟩ rfl hrelease with
      ⟨-, -, hone⟩ | ⟨hdrop | ⟨_, _, _, hopen, -⟩, -⟩
    · exact hone
    · cases hdrop
    · cases hopen

end Session

end StreamServer
