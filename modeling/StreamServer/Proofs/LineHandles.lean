import StreamServer.Proofs.LineRun

/-!
# The handles of a line

A line holds its first handle as long as it has a connection that is not closed,
and one more for each interrupter that is still there.  A step either makes
calls on handles that are held, or makes one more handle, or gives one back: the
first by closing or dropping the connection, another by dropping its
interrupter.

`Moves` lists these cases.  `Turnover` is what they have in common, and all that
is needed to keep account of the handles of many lines.
-/

namespace StreamServer

/-- Whether a call moves octets. -/
def Call.isTransfer : Call → Bool
  | .receive .. => true
  | .send .. => true
  | _ => false

def Call.isShutdown : Call → Bool
  | .shutdown _ => true
  | _ => false

/-- Calls with the handles they are made on. -/
abbrev CallLog := List (Handle × Call)

namespace CallLog

/-- The handles that are given back, in order. -/
def released (calls : CallLog) : List Handle :=
  calls.filterMap fun
    | (h, .release) => some h
    | _ => none

/-- Nothing is called on a handle once it is given back. -/
def NoneAfterRelease (calls : CallLog) : Prop :=
  calls.Pairwise fun x y => x.2 = .release → y.1 ≠ x.1

@[simp] theorem released_append
    (x y : CallLog) :
    released (x ++ y) = released x ++ released y := by
  simp [released]

/-- A handle is among those given back if the call for it was made. -/
theorem mem_released
    {calls : CallLog} {h : Handle} :
    h ∈ calls.released ↔ (h, .release) ∈ calls := by
  unfold released
  rw [List.mem_filterMap]
  constructor
  · rintro ⟨⟨h', k⟩, mem, hk⟩
    cases k with
    | release =>
        cases hk
        exact mem
    | _ => cases hk
  · intro mem
    exact ⟨_, mem, rfl⟩

theorem released_eq_nil
    {calls : CallLog}
    (h : ∀ x ∈ calls, x.2 ≠ .release) :
    calls.released = [] := by
  rw [List.eq_nil_iff_forall_not_mem]
  intro a mem
  exact h _ (mem_released.mp mem) rfl

end CallLog

/--
What becomes of handles: some are held before, some are new, calls are made,
and some are held after.
-/
structure Turnover
    (before new : List Handle)
    (calls : CallLog)
    (after : List Handle) : Prop where
  /-- Calls are made on handles that are there. -/
  owned : ∀ x ∈ calls, x.1 ∈ before ++ new
  /-- What is not given back is held. -/
  balance : (before ++ new).Perm (calls.released ++ after)
  order : calls.NoneAfterRelease
  /-- The first handle of a line is shut down only to be given back. -/
  parted : ∀ h answer, h.serial = 0 →
    (h, .shutdown answer) ∈ calls → (h, .release) ∈ calls

namespace Turnover

variable {before new after : List Handle} {calls : CallLog}

/-- Calls that give nothing back, on handles that are held. -/
theorem of_uses
    (owned : ∀ x ∈ calls, x.1 ∈ before)
    (unreleased : ∀ x ∈ calls, x.2 ≠ .release)
    (unshut : ∀ x ∈ calls, x.2.isShutdown = true → x.1.serial ≠ 0) :
    Turnover before [] calls before := by
  refine ⟨?_, ?_, ?_, ?_⟩
  · intro x mem
    exact List.mem_append_left _ (owned x mem)
  · rw [CallLog.released_eq_nil unreleased, List.append_nil,
      List.nil_append]
  · refine List.pairwise_of_forall_mem_list ?_
    intro x hx y _ hrelease
    exact absurd hrelease (unreleased x hx)
  · intro h answer hserial mem
    exact absurd hserial (unshut _ mem rfl)

/-- A handle is made, by a call that neither gives back nor shuts down. -/
theorem of_new
    {g h : Handle} {k : Call}
    (there : g ∈ before ++ [h])
    (unreleased : k ≠ .release)
    (unshut : k.isShutdown = false) :
    Turnover before [h] [(g, k)] (before ++ [h]) := by
  refine ⟨?_, ?_, List.pairwise_singleton _ _, ?_⟩
  · intro x mem
    rw [List.mem_singleton.mp mem]
    exact there
  · have hnone : CallLog.released [(g, k)] = [] := by
      refine CallLog.released_eq_nil ?_
      intro x mem
      rw [List.mem_singleton.mp mem]
      exact unreleased
    rw [hnone, List.nil_append]
  · intro f answer _ mem
    cases List.mem_singleton.mp mem
    cases unshut

/-- A handle is given back, and nothing else is done. -/
theorem of_release
    {h : Handle}
    (balance : before.Perm (h :: after)) :
    Turnover before [] [(h, .release)] after := by
  refine ⟨?_, ?_, List.pairwise_singleton _ _, ?_⟩
  · intro x mem
    rw [List.mem_singleton.mp mem, List.append_nil]
    exact balance.mem_iff.mpr List.mem_cons_self
  · rw [List.append_nil]
    exact balance
  · intro f answer _ mem
    cases List.mem_singleton.mp mem

/-- Handles that have nothing to do with it stay as they are. -/
theorem frame
    (turnover : Turnover before new calls after)
    (left right : List Handle) :
    Turnover (left ++ before ++ right) new calls
      (left ++ after ++ right) := by
  refine ⟨?_, ?_, turnover.order, turnover.parted⟩
  · intro x mem
    have hin := turnover.owned x mem
    simp only [List.mem_append] at hin ⊢
    rcases hin with hin | hin
    · exact Or.inl (Or.inl (Or.inr hin))
    · exact Or.inr hin
  · have hcount := turnover.balance
    rw [List.perm_iff_count] at hcount ⊢
    intro h
    have hone := hcount h
    simp only [List.count_append] at hone ⊢
    omega

end Turnover

/-! ## The calls of one operation -/

/-- A repeated call is made on its handle only. -/
theorem Retried.of_mem_calls
    {α : Type} {h : Handle} {made : Except Fault α → Call}
    {answer : Except Fault α} {T : Trace}
    (retried : Retried h made answer T)
    {x : Handle × Call}
    (mem : x ∈ T.calls) :
    x.1 = h ∧ ∃ r, x.2 = made r := by
  obtain ⟨r, hr⟩ := retried.acts (Trace.mem_calls.mp mem)
  rw [Act.call.injEq] at hr
  exact ⟨hr.1, r, hr.2⟩

namespace Connection

variable {σ : Type} [Transport σ]
variable {c : Connection}

/-- A write makes its calls on the handle of the connection. -/
theorem of_mem_calls_write
    {t : σ} {data : Bytes} {x : Handle × Call}
    (mem : x ∈ (c.write t data).trace.calls) :
    c.handle = some x.1 ∧ c.state = .live ∧
      x.2.isTransfer = true := by
  rcases write_cases c t data with
    ⟨-, hw⟩ | ⟨-, hw⟩ |
      ⟨h, answer, T, hlive, howns, -, retried, -, htrace⟩
  · rw [hw] at mem
    cases mem
  · rw [hw, calls_sent] at mem
    cases mem
  · rw [htrace, Trace.calls_append, calls_sent, List.append_nil] at mem
    obtain ⟨hx, r, hr⟩ := retried.of_mem_calls mem
    exact ⟨by rw [hx, howns], hlive, by rw [hr]; rfl⟩

/-- So does each write of a delivery. -/
theorem of_mem_calls_writeAll
    {t : σ} {data : Bytes} {x : Handle × Call}
    (mem : x ∈ (c.writeAll t data).trace.calls) :
    c.handle = some x.1 ∧ c.state = .live ∧
      x.2.isTransfer = true := by
  obtain ⟨u, offered, hwrite⟩ :=
    exists_write_of_mem_writeAll (Trace.mem_calls.mp mem)
  exact of_mem_calls_write (Trace.mem_calls.mpr hwrite)

/-- A read makes its calls on the handle of the connection. -/
theorem of_mem_calls_read
    {t : σ} {wanted : Nat} {x : Handle × Call}
    (mem : x ∈ (c.read t wanted).trace.calls) :
    c.handle = some x.1 ∧ c.state = .live ∧
      x.2.isTransfer = true := by
  rcases read_cases c t wanted with
    ⟨-, hr⟩ | ⟨h, answer, T, hlive, howns, retried, -, htrace⟩
  · rw [hr] at mem
    cases mem
  · rw [htrace, Trace.calls_append, calls_received,
      List.append_nil] at mem
    obtain ⟨hx, r, hr⟩ := retried.of_mem_calls mem
    exact ⟨by rw [hx, howns], hlive, by rw [hr]; rfl⟩

/-- A close shuts the handle down and gives it back, and makes no other call. -/
theorem calls_close
    {h : Handle}
    (owns : c.handle = some h)
    (t : σ) :
    ∃ answer,
      (c.close t).trace.calls =
        [(h, .shutdown answer), (h, .release)] := by
  obtain
    ⟨answer, ⟨-, htrace⟩ | ⟨-, _, htrace⟩ | ⟨_, -, htrace⟩⟩ :=
      close_cases owns t
  · exact ⟨answer, by rw [htrace]; rfl⟩
  · exact ⟨answer, by rw [htrace]; rfl⟩
  · exact ⟨answer, by rw [htrace]; rfl⟩

end Connection

namespace Line

variable {σ : Type}

/-! ## Steps -/

/-- The handles that a line holds: the first one while its connection is open,
and one for each interrupter that is still there. -/
def held (n : Nat) (l : Line σ) : List Handle :=
  (match l.connection with
    | some c => if c.state = .live then [⟨n, 0⟩] else []
    | none => []) ++
  l.interrupters.filterMap (Option.map Interrupter.handle)

/-- A connection owns the first handle of its line while it is open, and no
interrupter has that one. -/
structure Sound (n : Nat) (l : Line σ) : Prop where
  connection : ∀ c, l.connection = some c →
    (c.state = .live ∧ c.handle = some ⟨n, 0⟩) ∨
    (c.state = .closed ∧ c.handle = none)
  interrupters : ∀ i, some i ∈ l.interrupters → i.handle.serial ≠ 0
  handles_pos : 0 < l.handles

/--
What a step does with the handles of a line: which handle is new, which calls
are made, and how many handles there have been afterwards.
-/
inductive Moves (n : Nat) (l : Line σ) :
    LineStep → List Handle → CallLog → Line σ → Prop
  | uses
      {s : LineStep} {calls : CallLog} {l' : Line σ}
      (on_held : ∀ x ∈ calls, x.1 ∈ l.held n)
      (unreleased : ∀ x ∈ calls, x.2 ≠ .release)
      (unshut : ∀ x ∈ calls, x.2.isShutdown = true → x.1.serial ≠ 0)
      (holds : l'.held n = l.held n)
      (count : l'.handles = l.handles) :
      Moves n l s [] calls l'
  | duplicates
      {s : LineStep} {l' : Line σ}
      (first_held : (⟨n, 0⟩ : Handle) ∈ l.held n)
      (holds : l'.held n = l.held n ++ [⟨n, l.handles⟩])
      (count : l'.handles = l.handles + 1) :
      Moves n l s [⟨n, l.handles⟩]
        [(⟨n, 0⟩, .duplicate (.ok ()))] l'
  | closes
      {l' : Line σ}
      (answer : Except Fault Unit)
      (holds : l.held n = ⟨n, 0⟩ :: l'.held n)
      (count : l'.handles = l.handles) :
      Moves n l .close []
        [(⟨n, 0⟩, .shutdown answer), (⟨n, 0⟩, .release)] l'
  | drops
      {l' : Line σ}
      (holds : l.held n = ⟨n, 0⟩ :: l'.held n)
      (count : l'.handles = l.handles) :
      Moves n l .drop [] [(⟨n, 0⟩, .release)] l'
  | dropsInterrupter
      {place : Nat} {h : Handle} {l' : Line σ}
      (later : h.serial ≠ 0)
      (holds : (l.held n).Perm (h :: l'.held n))
      (count : l'.handles = l.handles) :
      Moves n l (.dropInterrupter place) [] [(h, .release)] l'

variable {n : Nat} {l : Line σ} {c : Connection}

/-- An open connection is one that owns the first handle, and it holds it. -/
theorem Sound.of_live
    (sound : l.Sound n)
    (hc : l.connection = some c)
    (live : c.state = .live) :
    c.handle = some ⟨n, 0⟩ ∧ (⟨n, 0⟩ : Handle) ∈ l.held n := by
  rcases sound.connection c hc with ⟨-, howns⟩ | ⟨hclosed, -⟩
  · exact ⟨howns, by simp [held, hc, live]⟩
  · rw [live] at hclosed
    cases hclosed

/-- A connection that owns a handle is open. -/
theorem Sound.live_of_owns
    {h : Handle}
    (sound : l.Sound n)
    (hc : l.connection = some c)
    (owns : c.handle = some h) :
    c.state = .live := by
  rcases sound.connection c hc with ⟨hlive, -⟩ | ⟨-, hnone⟩
  · exact hlive
  · rw [owns] at hnone
    cases hnone

/-- A connection without a handle is closed. -/
theorem Sound.closed_of_none
    (sound : l.Sound n)
    (hc : l.connection = some c)
    (ended : c.handle = none) :
    c.state = .closed := by
  rcases sound.connection c hc with ⟨-, hsome⟩ | ⟨hclosed, -⟩
  · rw [ended] at hsome
    cases hsome
  · exact hclosed

/-- A line holds nothing if its connection is closed or gone and its
interrupters are gone. -/
theorem held_eq_nil
    (closed : ∀ c, l.connection = some c → c.state = .closed)
    (gone : ∀ i, some i ∉ l.interrupters) :
    l.held n = [] := by
  have hinterrupters :
      l.interrupters.filterMap
        (Option.map Interrupter.handle) = [] := by
    rw [List.filterMap_eq_nil_iff]
    intro o ho
    cases o with
    | none => rfl
    | some i => exact absurd ho (gone i)
  rw [held, hinterrupters, List.append_nil]
  cases hc : l.connection with
  | none => rfl
  | some c => simp [closed c hc]

namespace Moves

variable {s : LineStep} {new : List Handle}
variable {calls : CallLog} {l' : Line σ}

theorem handles_le
    (moves : Moves n l s new calls l') :
    l.handles ≤ l'.handles := by
  cases moves with
  | duplicates _ _ count => omega
  | uses _ _ _ _ count => omega
  | closes _ _ count => omega
  | drops _ count => omega
  | dropsInterrupter _ _ count => omega

/-- A new handle has the next serial number of its line. -/
theorem of_mem_new
    (moves : Moves n l s new calls l')
    {h : Handle}
    (mem : h ∈ new) :
    h = ⟨n, l.handles⟩ ∧ l.handles < l'.handles := by
  cases moves with
  | duplicates _ _ count =>
      rw [List.mem_singleton] at mem
      exact ⟨mem, by omega⟩
  | _ => cases mem

theorem nodup_new
    (moves : Moves n l s new calls l') :
    new.Nodup := by
  cases moves with
  | duplicates _ _ _ => simp
  | _ => exact List.nodup_nil

theorem turnover
    (moves : Moves n l s new calls l') :
    Turnover (l.held n) new calls (l'.held n) := by
  cases moves with
  | uses on_held unreleased unshut holds _ =>
      rw [holds]
      exact .of_uses on_held unreleased unshut
  | duplicates first_held holds _ =>
      rw [holds]
      exact .of_new (List.mem_append_left _ first_held) (by simp) rfl
  | closes answer holds _ =>
      refine ⟨?_, ?_, ?_, ?_⟩
      · intro x mem
        rw [holds]
        simp only [List.mem_cons, List.not_mem_nil, or_false] at mem
        rcases mem with rfl | rfl <;> simp
      · rw [holds, List.append_nil]
        exact List.Perm.refl _
      · simp [CallLog.NoneAfterRelease]
      · intro h answer' _ mem
        simp only [List.mem_cons, Prod.mk.injEq, List.not_mem_nil,
          or_false] at mem ⊢
        rcases mem with ⟨rfl, -⟩ | ⟨-, hne⟩
        · exact Or.inr ⟨rfl, trivial⟩
        · cases hne
  | drops holds _ => exact .of_release (.of_eq holds)
  | dropsInterrupter _ holds _ => exact .of_release holds

/-- The first handle of a line is given back by closing its connection, right
after it is shut down, or by dropping the connection, and then nothing else is
done. -/
theorem first_released
    (moves : Moves n l s new calls l')
    {h : Handle}
    (first : h.serial = 0)
    (mem : (h, .release) ∈ calls) :
    h = ⟨n, 0⟩ ∧
    ((s = .close ∧
        ∃ answer, calls = [(h, .shutdown answer), (h, .release)]) ∨
      (s = .drop ∧ calls = [(h, .release)])) := by
  cases moves with
  | uses _ unreleased _ _ _ => exact absurd rfl (unreleased _ mem)
  | duplicates _ _ _ => cases List.mem_singleton.mp mem
  | closes answer _ _ =>
      simp only [List.mem_cons, Prod.mk.injEq, List.not_mem_nil,
        or_false] at mem
      rcases mem with ⟨-, hne⟩ | ⟨rfl, -⟩
      · cases hne
      · exact ⟨rfl, Or.inl ⟨rfl, answer, rfl⟩⟩
  | drops _ _ =>
      cases List.mem_singleton.mp mem
      exact ⟨rfl, Or.inr ⟨rfl, rfl⟩⟩
  | dropsInterrupter later _ _ =>
      cases List.mem_singleton.mp mem
      exact absurd first later

end Moves

/-- Without a call the same handles are held. -/
theorem Moves.still
    {s : LineStep} {l' : Line σ}
    (holds : l'.held n = l.held n)
    (count : l'.handles = l.handles) :
    Moves n l s [] [] l' :=
  .uses (by simp) (by simp) (by simp) holds count

/-- One call that gives nothing back, on a handle that is held. -/
theorem Moves.of_use
    {s : LineStep} {h : Handle} {k : Call} {l' : Line σ}
    (on_held : h ∈ l.held n)
    (unreleased : k ≠ .release)
    (unshut : k.isShutdown = true → h.serial ≠ 0)
    (holds : l'.held n = l.held n)
    (count : l'.handles = l.handles) :
    Moves n l s [] [(h, k)] l' := by
  refine .uses ?_ ?_ ?_ holds count
  · intro x mem
    rw [List.mem_singleton.mp mem]
    exact on_held
  · intro x mem
    rw [List.mem_singleton.mp mem]
    exact unreleased
  · intro x mem
    rw [List.mem_singleton.mp mem]
    exact unshut

/-- Moving octets is a move that makes use of the first handle. -/
theorem Moves.of_transfers
    {α : Type}
    (sound : l.Sound n)
    (hc : l.connection = some c)
    {s : LineStep} {o : Outcome σ α}
    (transfers : ∀ x ∈ o.trace.calls,
      c.handle = some x.1 ∧ c.state = .live ∧
        x.2.isTransfer = true) :
    Moves n l s [] o.trace.calls (l.moved o) := by
  refine .uses ?_ ?_ ?_ rfl rfl
  · intro x mem
    obtain ⟨howns, hlive, -⟩ := transfers x mem
    obtain ⟨hfirst, hheld⟩ := sound.of_live hc hlive
    rw [howns, Option.some.injEq] at hfirst
    rw [hfirst]
    exact hheld
  · intro x mem hrelease
    obtain ⟨-, -, htransfer⟩ := transfers x mem
    rw [hrelease] at htransfer
    cases htransfer
  · intro x mem hshut
    obtain ⟨-, -, htransfer⟩ := transfers x mem
    cases hx : x.2 with
    | shutdown answer =>
        rw [hx] at htransfer
        cases htransfer
    | _ =>
        rw [hx] at hshut
        cases hshut

/-- Taking an interrupter away takes its handle away. -/
theorem perm_handles_set
    {places : List (Option Interrupter)}
    {place : Nat} {i : Interrupter}
    (there : places[place]? = some (some i)) :
    (places.filterMap (Option.map Interrupter.handle)).Perm
      (i.handle ::
        (places.set place none).filterMap
          (Option.map Interrupter.handle)) := by
  induction places generalizing place with
  | nil => cases there
  | cons first rest ih =>
      cases place with
      | zero =>
          cases there
          exact List.Perm.refl _
      | succ place =>
          have hrest := ih there
          cases first with
          | none => exact hrest
          | some j =>
              exact (hrest.cons j.handle).trans (List.Perm.swap _ _ _)

/-- An interrupter that is there is one of its line. -/
theorem of_interrupter?
    {place : Nat} {i : Interrupter}
    (there : l.interrupter? place = some i) :
    l.interrupters[place]? = some (some i) ∧
      i.handle ∈ l.held n := by
  unfold interrupter? at there
  rw [Option.join_eq_some_iff] at there
  refine ⟨there, List.mem_append_right _ ?_⟩
  rw [List.mem_filterMap]
  exact ⟨some i, List.mem_of_getElem? there, rfl⟩

variable [Transport σ]

/-- The handles that a step makes. -/
def created (l : Line σ) (s : LineStep) : List Handle :=
  match (l.step s).1 with
  | .interrupter (.ok i) => [i.handle]
  | _ => []

/-- Closing gives the first handle back, unless that was done before: closing
again changes the connection, but not what is held. -/
theorem moves_close
    (sound : l.Sound n)
    (hc : l.connection = some c) :
    Moves n l .close [] (l.onConnection c .close).2.2.calls
      (l.onConnection c .close).2.1 := by
  cases howns : c.handle with
  | none =>
      have hclosed := sound.closed_of_none hc howns
      have hheld :
          ((l.onConnection c .close).2.1).held n = l.held n := by
        simp [onConnection, held, moved, hc, hclosed, Connection.ended]
      have hcalls : (l.onConnection c .close).2.2.calls = [] := by
        simp only [onConnection]
        rw [Connection.close_again howns]
        rfl
      rw [hcalls]
      exact .still hheld rfl
  | some h =>
      have hlive := sound.live_of_owns hc howns
      obtain ⟨hfirst, -⟩ := sound.of_live hc hlive
      obtain ⟨answer, hcalls⟩ :=
        Connection.calls_close hfirst l.transport
      simp only [onConnection]
      rw [hcalls]
      refine .closes answer ?_ rfl
      simp [held, moved, hc, hlive, Connection.ended]

/-- Dropping gives the first handle back, unless it was closed before. -/
theorem moves_drop
    (sound : l.Sound n)
    (hc : l.connection = some c) :
    Moves n l .drop [] (l.onConnection c .drop).2.2.calls
      (l.onConnection c .drop).2.1 := by
  cases howns : c.handle with
  | none =>
      have hclosed := sound.closed_of_none hc howns
      simp only [onConnection, Connection.drop, howns]
      refine .still ?_ rfl
      simp [held, moved, hc, hclosed]
  | some h =>
      have hlive := sound.live_of_owns hc howns
      obtain ⟨hfirst, -⟩ := sound.of_live hc hlive
      simp only [onConnection, Connection.drop, hfirst]
      refine .drops ?_ rfl
      simp [held, moved, hc, hlive]

/-- Making an interrupter makes use of the first handle, and makes another if
the transport does. -/
theorem moves_interrupter
    (sound : l.Sound n)
    (hc : l.connection = some c) :
    Moves n l .interrupter
      (match (l.onConnection c .interrupter).1 with
        | .interrupter (.ok i) => [i.handle]
        | _ => [])
      (l.onConnection c .interrupter).2.2.calls
      (l.onConnection c .interrupter).2.1 := by
  cases howns : c.handle with
  | none =>
      simp only [onConnection, Connection.interrupter, howns]
      exact .still rfl rfl
  | some h =>
      have hlive := sound.live_of_owns hc howns
      obtain ⟨hfirst, hheld⟩ := sound.of_live hc hlive
      simp only [onConnection, Connection.interrupter, hfirst]
      cases hanswer : (Transport.duplicate l.transport).1 with
      | ok u =>
          refine .duplicates hheld ?_ rfl
          simp [held, moved, Except.map]
      | error f =>
          exact .of_use hheld (by simp) (by simp [Call.isShutdown])
            rfl rfl

/-- Every step on the connection of a line is such a move. -/
theorem moves_onConnection
    (sound : l.Sound n)
    (hc : l.connection = some c)
    (s : LineStep) :
    Moves n l s
      (match (l.onConnection c s).1 with
        | .interrupter (.ok i) => [i.handle]
        | _ => [])
      (l.onConnection c s).2.2.calls
      (l.onConnection c s).2.1 := by
  cases s with
  | write data =>
      exact .of_transfers sound hc
        (fun _ mem => Connection.of_mem_calls_write mem)
  | writeAll data =>
      exact .of_transfers sound hc
        (fun _ mem => Connection.of_mem_calls_writeAll mem)
  | read wanted =>
      exact .of_transfers sound hc
        (fun _ mem => Connection.of_mem_calls_read mem)
  | readDefault =>
      exact .of_transfers sound hc
        (fun _ mem => Connection.of_mem_calls_read mem)
  | close => exact moves_close sound hc
  | drop => exact moves_drop sound hc
  | interrupter => exact moves_interrupter sound hc
  | interrupt place => exact .still rfl rfl
  | dropInterrupter place => exact .still rfl rfl

theorem moves_step
    (sound : l.Sound n)
    (s : LineStep) :
    Moves n l s (l.created s) (l.step s).2.2.calls
      (l.step s).2.1 := by
  cases s with
  | interrupt place =>
      cases there : l.interrupter? place with
      | none =>
          simp only [created, step, there]
          exact .still rfl rfl
      | some i =>
          obtain ⟨hplace, hheld⟩ := of_interrupter? (n := n) there
          have hlater :=
            sound.interrupters i (List.mem_of_getElem? hplace)
          simp only [created, step, there]
          exact .of_use hheld (by simp) (fun _ => hlater) rfl rfl
  | dropInterrupter place =>
      cases there : l.interrupter? place with
      | none =>
          simp only [created, step, there]
          exact .still rfl rfl
      | some i =>
          obtain ⟨hplace, -⟩ := of_interrupter? (n := n) there
          have hlater :=
            sound.interrupters i (List.mem_of_getElem? hplace)
          simp only [created, step, there]
          refine .dropsInterrupter hlater ?_ rfl
          exact
            ((perm_handles_set hplace).append_left _).trans
              List.perm_middle
  | _ =>
      cases hc : l.connection with
      | none =>
          simp only [created, step, hc]
          exact .still rfl rfl
      | some c =>
          simp only [created, step, hc]
          exact moves_onConnection sound hc _

/-- Closing or dropping an open connection gives the first handle back. -/
theorem Sound.release_first
    (sound : l.Sound n)
    (hc : l.connection = some c)
    (live : c.state = .live)
    {s : LineStep}
    (parts : s = .close ∨ s = .drop) :
    (⟨n, 0⟩, .release) ∈ (l.step s).2.2.calls := by
  obtain ⟨owns, -⟩ := sound.of_live hc live
  rcases parts with rfl | rfl
  · obtain ⟨answer, hcalls⟩ := Connection.calls_close owns l.transport
    simp only [step, hc, onConnection, hcalls]
    exact List.mem_cons_of_mem _ (List.mem_singleton_self _)
  · simp only [step, hc, onConnection, Connection.drop, owns]
    exact List.mem_singleton_self _

/-- Dropping an interrupter that is there gives its handle back. -/
theorem calls_dropInterrupter
    {place : Nat} {i : Interrupter}
    (there : l.interrupter? place = some i) :
    (l.step (.dropInterrupter place)).2.2.calls =
      [(i.handle, .release)] := by
  simp only [step, there]
  rfl

/-- Once its connection is closed or dropped, a line stays sound. -/
theorem Sound.connection_step
    (sound : l.Sound n)
    (s : LineStep)
    {d : Connection}
    (hd : (l.step s).2.1.connection = some d) :
    (d.state = .live ∧ d.handle = some ⟨n, 0⟩) ∨
    (d.state = .closed ∧ d.handle = none) := by
  rw [Line.connection_step] at hd
  cases s with
  | close =>
      obtain ⟨c, -, rfl⟩ := Option.map_eq_some_iff.mp hd
      exact Or.inr ⟨rfl, rfl⟩
  | drop => cases hd
  | _ => exact sound.connection d hd

/-- Only making an interrupter adds one, with the next handle. -/
theorem mem_interrupters_step
    {s : LineStep} {i : Interrupter}
    (mem : some i ∈ (l.step s).2.1.interrupters) :
    some i ∈ l.interrupters ∨ i.handle.serial = l.handles := by
  cases s with
  | interrupt place =>
      simp only [step] at mem
      cases there : l.interrupter? place with
      | none =>
          rw [there] at mem
          exact Or.inl mem
      | some j =>
          rw [there] at mem
          exact Or.inl mem
  | dropInterrupter place =>
      simp only [step] at mem
      cases there : l.interrupter? place with
      | none =>
          rw [there] at mem
          exact Or.inl mem
      | some j =>
          rw [there] at mem
          rcases List.mem_or_eq_of_mem_set mem with hin | hnone
          · exact Or.inl hin
          · cases hnone
  | interrupter =>
      cases hc : l.connection with
      | none =>
          simp only [step, hc] at mem
          exact Or.inl mem
      | some c =>
          simp only [step, hc, onConnection,
            Connection.interrupter] at mem
          cases howns : c.handle with
          | none =>
              rw [howns] at mem
              exact Or.inl mem
          | some h =>
              rw [howns] at mem
              cases hanswer : (Transport.duplicate l.transport).1 with
              | ok u =>
                  simp only [hanswer, Except.map,
                    List.mem_append, List.mem_singleton] at mem
                  rcases mem with hin | hnew
                  · exact Or.inl hin
                  · cases hnew
                    exact Or.inr rfl
              | error f =>
                  simp only [hanswer, Except.map] at mem
                  exact Or.inl mem
  | _ =>
      cases hc : l.connection with
      | none =>
          simp only [step, hc] at mem
          exact Or.inl mem
      | some c =>
          simp only [step, hc, onConnection, moved] at mem
          exact Or.inl mem

theorem Sound.step
    (sound : l.Sound n)
    (s : LineStep) :
    (l.step s).2.1.Sound n := by
  have hcount := (moves_step sound s).handles_le
  have hpos := sound.handles_pos
  refine ⟨fun d hd => sound.connection_step s hd, ?_, by omega⟩
  intro i mem
  rcases mem_interrupters_step mem with hin | hnew
  · exact sound.interrupters i hin
  · omega

end Line

end StreamServer
