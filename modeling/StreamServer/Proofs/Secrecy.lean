import StreamServer.Proofs.FirstAnswer
import StreamServer.Session
import StreamServer.Transport.Socket

/-!
# What lies beyond the preview

An error of a write shows the beginning of the payload as a preview.  Nothing else
that a write returns, emits or does tells of the octets it was given, only of their
number.  So two payloads of the same length that begin alike are written alike, over
any transport that does not itself look at what it is offered; and they are wherever
the preview ends, also inside the encoding of a character.

That a transport does not look is said of what it answers, not of its state: it may
keep all it is offered, as a socket does.  Two states are told apart only by what is
answered to some offers made one after another.
-/

namespace StreamServer

/-! ## Transports that do not look -/

namespace Transport

variable {σ : Type} [Transport σ]

/-- What is answered to offers made one after another. -/
def answersTo (t : σ) : List Bytes → List (Except Fault Nat)
  | [] => []
  | data :: rest =>
      (Transport.send t data).1 :: answersTo (Transport.send t data).2 rest

/-- Two states that answer the same to offers of the same lengths. -/
def Alike (t u : σ) : Prop :=
  ∀ offers others : List Bytes,
    offers.map List.length = others.map List.length →
      answersTo t offers = answersTo u others

/-- What is answered to offers depends on their lengths alone. -/
def Incurious (t : σ) : Prop :=
  Alike t t

variable {t u : σ} {data other : Bytes}

/-- States that are alike answer an offer alike, and are alike after it. -/
theorem Alike.send
    (alike : Alike t u)
    (same_length : data.length = other.length) :
    (Transport.send t data).1 = (Transport.send u other).1 ∧
      Alike (Transport.send t data).2 (Transport.send u other).2 := by
  constructor
  · have hone := alike [data] [other] (by simp [same_length])
    exact (List.cons.inj hone).1
  · intro offers others same_lengths
    have hmore := alike (data :: offers) (other :: others)
      (by simp [same_length, same_lengths])
    exact (List.cons.inj hmore).2

/-- States are alike if they are related in a way that every offer keeps. -/
theorem alike_of_related
    {R : σ → σ → Prop}
    (step : ∀ {t u data other}, R t u → data.length = other.length →
      (Transport.send t data).1 = (Transport.send u other).1 ∧
        R (Transport.send t data).2 (Transport.send u other).2)
    (related : R t u) :
    Alike t u := by
  intro offers
  induction offers generalizing t u with
  | nil =>
      intro others same_lengths
      rw [List.map_eq_nil_iff.mp same_lengths.symm]
      rfl
  | cons data rest ih =>
      intro others same_lengths
      cases others with
      | nil => cases same_lengths
      | cons other others =>
          obtain ⟨hlength, hlengths⟩ := List.cons.inj same_lengths
          obtain ⟨hanswer, hafter⟩ := step related hlength
          rw [answersTo, answersTo, hanswer, ih hafter others hlengths]

end Transport

/-- A script answers in the order prepared, whatever it is offered. -/
theorem Script.incurious
    (t : Script) :
    Transport.Incurious t := by
  refine Transport.alike_of_related (R := Eq) ?_ rfl
  rintro t u data other rfl same_length
  simp only [Transport.send, Script.send, same_length, and_self]

/-- What a socket has on its way, and which octets it is offered, decide no more
than what it has on its way after that. -/
theorem Socket.send_outgoing
    (t : Socket) (out : Bytes)
    {data other : Bytes}
    (same_length : data.length = other.length) :
    ∃ out',
      Socket.send { t with outgoing := out } other =
        ((t.send data).1, { (t.send data).2 with outgoing := out' }) := by
  fun_cases Socket.send t data with
  | case1 hfamily hover =>
      exact ⟨out, by simp [Socket.send, hfamily, hover]⟩
  | case2 hfamily hover =>
      exact ⟨out ++ other, by simp [Socket.send, hfamily, hover, same_length]⟩
  | case3 hfamily hreset =>
      exact ⟨out, by simp [Socket.send, hfamily, hreset]⟩
  | case4 hfamily hreset hover =>
      exact ⟨out, by simp [Socket.send, hfamily, hreset, hover]⟩
  | case5 hfamily hreset hover hvanished =>
      exact ⟨out, by
        simp [Socket.send, hfamily, hreset, hover, hvanished, same_length]⟩
  | case6 hfamily hreset hover hvanished =>
      exact ⟨out ++ other, by
        simp [Socket.send, hfamily, hreset, hover, hvanished, same_length]⟩

/-- A socket keeps what it is offered for its peer, but does not look at it. -/
theorem Socket.incurious
    (t : Socket) :
    Transport.Incurious t := by
  refine Transport.alike_of_related
    (R := fun t u => ∃ out, u = { t with outgoing := out }) ?_ ⟨_, rfl⟩
  rintro t u data other ⟨out, rfl⟩ same_length
  obtain ⟨out', hsend⟩ := t.send_outgoing out same_length
  simp only [Transport.send, hsend]
  exact ⟨trivial, out', rfl⟩

/-! ## Two writes -/

namespace Connection

open Attempts Transport

variable {σ : Type} [Transport σ]
variable {t u : σ} {data other : Bytes}

/-- However often a payload is offered, another of its length finds the transport
alike. -/
theorem alike_leftBy
    (alike : Alike t u)
    (same_length : data.length = other.length)
    (k : Nat) :
    Alike
      (leftBy (fun t : σ => Transport.send t data) t k)
      (leftBy (fun t : σ => Transport.send t other) u k) := by
  induction k generalizing t u with
  | zero => exact alike
  | succ k ih => exact ih (alike.send same_length).2

theorem answerAfter_of_alike
    (alike : Alike t u)
    (same_length : data.length = other.length)
    (k : Nat) :
    answerAfter (fun t : σ => Transport.send t data) t k =
      answerAfter (fun t : σ => Transport.send t other) u k :=
  ((alike_leftBy alike same_length k).send same_length).1

/-- The first answer for good comes after as many others. -/
theorem settledAfter_of_alike
    (alike : Alike t u)
    (same_length : data.length = other.length)
    {k : Nat}
    (settled : SettledAfter (fun t : σ => Transport.send t data) t k) :
    SettledAfter (fun t : σ => Transport.send t other) u k := by
  constructor
  · rw [← answerAfter_of_alike alike same_length k]
    exact settled.last
  · intro i hi
    rw [← answerAfter_of_alike alike same_length i]
    exact settled.before i hi

theorem closed_or_open
    (c : Connection) :
    (c.state ≠ .live ∨ c.handle = none) ∨
      ∃ h, c.state = .live ∧ c.handle = some h := by
  cases hstate : c.state with
  | closed => exact Or.inl (Or.inl nofun)
  | live =>
      cases hhandle : c.handle with
      | none => exact Or.inl (Or.inr rfl)
      | some h => exact Or.inr ⟨h, rfl, rfl⟩

/-- A connection that is not open, or has no handle, offers nothing. -/
theorem write_of_closed
    {c : Connection}
    (closed : c.state ≠ .live ∨ c.handle = none)
    (t : σ) (data : Bytes) :
    c.write t data =
      ⟨.error (.notLive (preview data c.settings.previewLength.toNat)),
        t, []⟩ := by
  unfold write
  split
  · next h live held => simp [live, held] at closed
  · rfl

/-- An answer means the same for payloads of one length that begin alike. -/
theorem writeResult_of_same_start
    (c : Connection)
    (same_length : data.length = other.length)
    (same_start : data.take c.settings.previewLength.toNat =
      other.take c.settings.previewLength.toNat)
    (answer : Except Fault Nat) :
    c.writeResult data answer = c.writeResult other answer := by
  cases answer with
  | ok n => simp only [writeResult, preview, same_length, same_start]
  | error f => simp only [writeResult, preview, same_start]

/-- The acts of a write: offers of the payload, with the handle of each and what
was answered to it, and after them events. -/
def actsOf
    (data : Bytes)
    (offers : List (Handle × Except Fault Nat))
    (told : List Event) : Trace :=
  offers.map (fun o => .call o.1 (.send data o.2)) ++ told.map .emit

theorem events_actsOf
    (data : Bytes)
    (offers : List (Handle × Except Fault Nat))
    (told : List Event) :
    (actsOf data offers told).events = told := by
  have hoffers : Trace.events
      (offers.map fun o => .call o.1 (.send data o.2)) = [] := by
    rw [Trace.events, List.filterMap_map]
    exact List.filterMap_eq_nil_iff.mpr fun _ _ => rfl
  have htold : Trace.events (told.map .emit) = told := by
    rw [Trace.events, List.filterMap_map]
    exact List.filterMap_some
  rw [actsOf, Trace.events_append, hoffers, htold, List.nil_append]

theorem sent_eq_emits
    (c : Connection) (result : Except ConnectionError Nat) :
    ∃ told : List Event, c.sent result = told.map .emit := by
  cases result with
  | ok n => exact ⟨[_], rfl⟩
  | error e => exact ⟨[], rfl⟩

/-- Writes of payloads of one length that begin alike, to states that are alike:
the same is returned, the acts are the same but for the payload, and the states
after them are alike. -/
theorem write_of_alike
    (c : Connection)
    (alike : Alike t u)
    (same_length : data.length = other.length)
    (same_start : data.take c.settings.previewLength.toNat =
      other.take c.settings.previewLength.toNat) :
    (c.write t data).result = (c.write u other).result ∧
      (∃ offers told,
        (c.write t data).trace = actsOf data offers told ∧
        (c.write u other).trace = actsOf other offers told) ∧
      Alike (c.write t data).transport (c.write u other).transport := by
  rcases c.closed_or_open with closed | ⟨h, live, held⟩
  · rw [write_of_closed closed, write_of_closed closed]
    refine ⟨?_, ⟨[], [], rfl, rfl⟩, alike⟩
    simp only [preview, same_start]
  · by_cases hnil : data = []
    · have hnil' : other = [] := by
        rw [hnil] at same_length
        exact List.length_eq_zero_iff.mp same_length.symm
      simp only [write, live, held, if_pos hnil, if_pos hnil']
      exact ⟨trivial, ⟨[], [_], rfl, rfl⟩, alike⟩
    · have hnil' : other ≠ [] := by
        rintro rfl
        exact hnil (List.length_eq_zero_iff.mp same_length)
      obtain ⟨k, settled⟩ := exists_settledAfter_send t data
      have settled' := settledAfter_of_alike alike same_length settled
      rw [write_of_settledAfter live held hnil settled,
        write_of_settledAfter live held hnil' settled']
      simp only [← answerAfter_of_alike alike same_length,
        ← c.writeResult_of_same_start same_length same_start]
      obtain ⟨told, htold⟩ := c.sent_eq_emits
        (c.writeResult data (answerAfter (Transport.send · data) t k))
      rw [htold]
      refine ⟨trivial, ⟨(List.range (k + 1)).map fun i =>
          (h, answerAfter (Transport.send · data) t i), told, ?_, ?_⟩,
        alike_leftBy alike same_length (k + 1)⟩
      · rw [actsOf, List.map_map]
        rfl
      · rw [actsOf, List.map_map]
        rfl

end Connection

/--
**What lies beyond the preview is not seen**, on any line with a connection, open
or not, whatever its settings, and over any transport that answers to what it is
offered by the length alone.  Two payloads of one length that agree as far as a
preview goes are written alike:

* the same is answered, be it a count or an error, with its preview, its fault and
  so its message;
* the same events are emitted;
* as many offers are made, on the same handles and with the same answers, each of
  them of the payload, and nothing else is done but that the events follow;
* the connection, the handles and the interrupters stay as they are, and no offers
  made later tell the transport of one line from that of the other.
-/
theorem Line.beyond_preview_unseen
    {σ : Type} [Transport σ]
    {l : Line σ} {c : Connection}
    (hc : l.connection = some c)
    (incurious : Transport.Incurious l.transport)
    {data other : Bytes}
    (same_length : data.length = other.length)
    (same_start : data.take c.settings.previewLength.toNat =
      other.take c.settings.previewLength.toNat) :
    let r := l.step (.write data)
    let r' := l.step (.write other)
    r.1 = r'.1 ∧
    r.2.2.events = r'.2.2.events ∧
    (∃ (offers : List (Handle × Except Fault Nat)) (told : List Event),
      r.2.2 =
        offers.map (fun o => .call o.1 (.send data o.2)) ++ told.map .emit ∧
      r'.2.2 =
        offers.map (fun o => .call o.1 (.send other o.2)) ++ told.map .emit) ∧
    (∃ t t',
      r.2.1 = { l with transport := t } ∧
      r'.2.1 = { l with transport := t' } ∧
      Transport.Alike t t') := by
  obtain ⟨hresult, ⟨offers, told, hacts, hacts'⟩, halike⟩ :=
    Connection.write_of_alike c incurious same_length same_start
  have hstep : ∀ d, l.step (.write d) =
      (.count (c.write l.transport d).result,
        { l with transport := (c.write l.transport d).transport },
        (c.write l.transport d).trace) := by
    intro d
    simp only [Line.step, hc, Line.onConnection, Line.moved]
  intro r r'
  simp only [r, r', hstep]
  refine ⟨by rw [hresult], ?_, ⟨offers, told, hacts, hacts'⟩,
    ⟨_, _, rfl, rfl, halike⟩⟩
  rw [hacts, hacts', Connection.events_actsOf, Connection.events_actsOf]

/-- Broken off once and then failed, with a preview that ends inside a character:
neither the error nor anything else tells which character it was. -/
theorem Line.beyond_preview_unseen_cut_character :
    let c : Connection :=
      { handle := some ⟨0, 0⟩
        id := 3
        origin := "a"
        state := .live
        settings := { previewLength := 2 } }
    let t : Script :=
      { descriptor := 3
        peer := .ok "a"
        writes := [.error (.system 4), .error (.system 110)] }
    let l : Line Script := ⟨t, 1, some c, []⟩
    let data : Bytes := [0x61, 0xC3, 0xA9]
    let other : Bytes := [0x61, 0xC3, 0xA0]
    let failed : Answer :=
      .count (.error (.writeFailed "a\uFFFD" (.system 110)))
    l.connection = some c ∧
    Transport.Incurious l.transport ∧
    data.length = other.length ∧
    data.take c.settings.previewLength.toNat =
      other.take c.settings.previewLength.toNat ∧
    data ≠ other ∧
    (l.step (.write data)).1 = failed ∧
    (l.step (.write other)).1 = failed ∧
    (l.step (.write data)).2.2.events = (l.step (.write other)).2.2.events := by
  intro c t l data other failed
  have incurious : Transport.Incurious t := t.incurious
  have same_length : data.length = other.length := rfl
  have same_start : data.take c.settings.previewLength.toNat =
      other.take c.settings.previewLength.toNat := rfl
  have settled : Attempts.SettledAfter (Transport.send · data) t 1 :=
    ⟨by decide, by decide⟩
  have hfailed : (l.step (.write data)).1 = failed := by
    show Answer.count (c.write t data).result = failed
    rw [Connection.write_of_settledAfter rfl rfl (by decide) settled]
    rfl
  obtain ⟨hanswer, hevents, -⟩ :=
    Line.beyond_preview_unseen (l := l) rfl incurious same_length same_start
  exact ⟨rfl, incurious, same_length, same_start, by decide, hfailed,
    hanswer.symm.trans hfailed, hevents⟩

end StreamServer
