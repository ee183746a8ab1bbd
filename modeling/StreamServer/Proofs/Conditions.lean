import Mathlib.Data.List.Basic
import StreamServer.Settings.Source

/-!
# The conditions on settings

Validation asks five things of settings.  Each of them is about fields of its own:
one field, and for the counters two, whether they are published and where.  What is
reported is told by this alone: the conditions that are not met, in a fixed order,
each by one violation that names its field.

So a field that is changed changes nothing in what is reported of the others, and
settings in which just the named fields are put right are valid.
-/

namespace StreamServer

/-- What is asked of settings. -/
inductive Condition
  | readSize
  | previewLength
  | bindAddress
  | maxConnections
  | metricsAddress
  deriving Repr, DecidableEq

namespace Condition

/-- The conditions in the order in which they are judged. -/
def inOrder : List Condition :=
  [readSize, previewLength, bindAddress, maxConnections, metricsAddress]

/-- The path of the field that is named if a condition is not met. -/
def path : Condition → String
  | readSize => "connection.read_size"
  | previewLength => "connection.preview_len"
  | bindAddress => "listener.bind_address"
  | maxConnections => "listener.max_connections"
  | metricsAddress => "observability.metrics_address"

/-- Settings meet a condition. -/
def Met (s : Settings) : Condition → Prop
  | readSize =>
      0 < s.connection.readSize.toNat ∧
        s.connection.readSize.toNat ≤ maxReadSize
  | previewLength => 0 < s.connection.previewLength.toNat
  | bindAddress =>
      (SocketAddress.parse? s.listener.bindAddress).isSome = true
  | maxConnections => 0 < s.listener.maxConnections.toNat
  | metricsAddress =>
      s.report.metricsEnabled = true →
        (SocketAddress.parse? s.report.metricsAddress).isSome = true

instance (s : Settings) : DecidablePred (Met s)
  | readSize => inferInstanceAs (Decidable (_ ∧ _))
  | previewLength => inferInstanceAs (Decidable (_ < _))
  | bindAddress => inferInstanceAs (Decidable (_ = true))
  | maxConnections => inferInstanceAs (Decidable (_ < _))
  | metricsAddress => inferInstanceAs (Decidable (_ = true → _ = true))

/-- What is reported of a condition that is not met. -/
def complaint (s : Settings) : Condition → Violation
  | readSize =>
      if s.connection.readSize.toNat = 0 then .readSizeZero
      else .readSizeTooLarge
  | previewLength => .previewLengthZero
  | bindAddress => .bindAddress s.listener.bindAddress
  | maxConnections => .maxConnectionsZero
  | metricsAddress => .metricsAddress s.report.metricsAddress

/-- The conditions that settings do not meet, in order. -/
def unmet (s : Settings) : List Condition :=
  inOrder.filter fun c => ¬ Met s c

/-- A condition by itself: nothing is reported of it if it is met, and one
violation otherwise. -/
def verdict (s : Settings) (c : Condition) : List Violation :=
  if Met s c then [] else [c.complaint s]

/-- Two settings are the same in the fields that a condition is about. -/
def SameFor (s s' : Settings) : Condition → Prop
  | readSize => s'.connection.readSize = s.connection.readSize
  | previewLength =>
      s'.connection.previewLength = s.connection.previewLength
  | bindAddress => s'.listener.bindAddress = s.listener.bindAddress
  | maxConnections =>
      s'.listener.maxConnections = s.listener.maxConnections
  | metricsAddress =>
      s'.report.metricsEnabled = s.report.metricsEnabled ∧
        s'.report.metricsAddress = s.report.metricsAddress

variable {s s' : Settings} {c : Condition}

theorem mem_inOrder
    (c : Condition) :
    c ∈ inOrder := by
  cases c <;> decide

theorem field_complaint
    (s : Settings) (c : Condition) :
    (c.complaint s).field = c.path := by
  cases c with
  | readSize =>
      simp only [complaint]
      split <;> rfl
  | _ => rfl

theorem verdict_of_met
    (met : Met s c) :
    c.verdict s = [] := by
  rw [verdict, if_pos met]

theorem verdict_of_not_met
    (not_met : ¬ Met s c) :
    c.verdict s = [c.complaint s] := by
  rw [verdict, if_neg not_met]

theorem unmet_eq_nil_iff :
    unmet s = [] ↔ ∀ c, Met s c := by
  simp only [unmet, List.filter_eq_nil_iff, decide_not, Bool.not_eq_true',
    decide_eq_false_iff_not, not_not]
  exact ⟨fun h c => h c (mem_inOrder c), fun h c _ => h c⟩

/-- Only the fields that a condition is about decide whether it is met. -/
theorem SameFor.met_iff
    (same : SameFor s s' c) :
    Met s' c ↔ Met s c := by
  cases c with
  | metricsAddress =>
      obtain ⟨henabled, haddress⟩ := same
      simp only [Met, henabled, haddress]
  | _ =>
      simp only [SameFor] at same
      simp only [Met, same]

/-- Only the fields that a condition is about decide what comes of it. -/
theorem SameFor.verdict_eq
    (same : SameFor s s' c) :
    c.verdict s' = c.verdict s := by
  have hcomplaint : c.complaint s' = c.complaint s := by
    cases c with
    | metricsAddress => simp only [complaint, same.2]
    | _ =>
        simp only [SameFor] at same
        simp only [complaint, same]
  by_cases met : Met s c
  · rw [verdict_of_met met, verdict_of_met (same.met_iff.mpr met)]
  · rw [verdict_of_not_met met, verdict_of_not_met (mt same.met_iff.mp met),
      hcomplaint]

/-- What is reported of a condition names its field. -/
theorem filter_verdict
    (kept : String → Bool) (s : Settings) (c : Condition) :
    (c.verdict s).filter (fun v => kept v.field) =
      if kept c.path then c.verdict s else [] := by
  by_cases met : Met s c
  · simp [verdict_of_met met]
  · simp [verdict_of_not_met met, field_complaint, List.filter_cons]

end Condition

namespace Settings

open Condition

variable {s s' : Settings}

/-! ## The conditions one by one -/

theorem toNat_pos_iff
    {n : UInt64} :
    0 < n.toNat ↔ n ≠ 0 :=
  UInt64.lt_iff_toNat_lt.symm.trans UInt64.pos_iff_ne_zero

theorem readSizeViolations_eq
    (s : Settings) :
    s.readSizeViolations = Condition.readSize.verdict s := by
  rw [readSizeViolations]
  split_ifs with hzero hlarge
  · have hnot : ¬ Met s .readSize :=
      fun met => toNat_pos_iff.mp met.1 hzero
    rw [verdict_of_not_met hnot, complaint, if_pos (by rw [hzero]; rfl)]
  · have hpos := toNat_pos_iff.mpr hzero
    have hnot : ¬ Met s .readSize :=
      fun met => Nat.not_lt.mpr met.2 hlarge
    rw [verdict_of_not_met hnot, complaint, if_neg (by omega)]
  · have hmet : Met s .readSize :=
      ⟨toNat_pos_iff.mpr hzero, Nat.not_lt.mp hlarge⟩
    rw [verdict_of_met hmet]

theorem previewLengthViolations_eq
    (s : Settings) :
    s.previewLengthViolations = Condition.previewLength.verdict s := by
  rw [previewLengthViolations]
  split_ifs with hzero
  · have hnot : ¬ Met s .previewLength :=
      fun met => toNat_pos_iff.mp met hzero
    rw [verdict_of_not_met hnot, complaint]
  · have hmet : Met s .previewLength := toNat_pos_iff.mpr hzero
    rw [verdict_of_met hmet]

theorem bindAddressViolations_eq
    (s : Settings) :
    s.bindAddressViolations = Condition.bindAddress.verdict s := by
  rw [bindAddressViolations]
  split_ifs with haddress
  · have hmet : Met s .bindAddress := haddress
    rw [verdict_of_met hmet]
  · have hnot : ¬ Met s .bindAddress := haddress
    rw [verdict_of_not_met hnot, complaint]

theorem maxConnectionsViolations_eq
    (s : Settings) :
    s.maxConnectionsViolations = Condition.maxConnections.verdict s := by
  rw [maxConnectionsViolations]
  split_ifs with hzero
  · have hnot : ¬ Met s .maxConnections :=
      fun met => toNat_pos_iff.mp met hzero
    rw [verdict_of_not_met hnot, complaint]
  · have hmet : Met s .maxConnections := toNat_pos_iff.mpr hzero
    rw [verdict_of_met hmet]

theorem metricsAddressViolations_eq
    (s : Settings) :
    s.metricsAddressViolations = Condition.metricsAddress.verdict s := by
  rw [metricsAddressViolations]
  split_ifs with hwrong
  · rw [Bool.and_eq_true, Bool.not_eq_true'] at hwrong
    obtain ⟨henabled, haddress⟩ := hwrong
    have hnot : ¬ Met s .metricsAddress :=
      fun met => Bool.false_ne_true (haddress.symm.trans (met henabled))
    rw [verdict_of_not_met hnot, complaint]
  · have hmet : Met s .metricsAddress := by
      intro henabled
      simpa [henabled, isAddress, Option.isSome_iff_ne_none] using hwrong
    rw [verdict_of_met hmet]

/-! ## All of them -/

/-- Everything that is wrong, condition by condition. -/
theorem violations_eq_verdicts
    (s : Settings) :
    s.violations = inOrder.flatMap (verdict s) := by
  rw [violations, readSizeViolations_eq, previewLengthViolations_eq,
    bindAddressViolations_eq, maxConnectionsViolations_eq,
    metricsAddressViolations_eq]
  simp only [inOrder, List.flatMap_cons, List.flatMap_nil, List.append_nil,
    List.append_assoc]

/-- Everything that is wrong: one violation for each condition that is not
met. -/
theorem violations_eq_map
    (s : Settings) :
    s.violations = (unmet s).map (complaint s) := by
  rw [violations_eq_verdicts, unmet]
  induction inOrder with
  | nil => rfl
  | cons c rest ih =>
      rw [List.flatMap_cons, ih]
      by_cases met : Met s c
      · simp [verdict_of_met met, met]
      · simp [verdict_of_not_met met, met]

theorem violations_eq_nil_iff :
    s.violations = [] ↔ ∀ c, Met s c := by
  rw [violations_eq_map, List.map_eq_nil_iff, unmet_eq_nil_iff]

/-- Valid settings are those without violations. -/
theorem validate_eq_ok_iff
    {s' : Settings} :
    s.validate = .ok s' ↔ s.violations = [] ∧ s' = s := by
  unfold validate
  cases s.violations with
  | nil => simp [eq_comm]
  | cons v vs => simp

theorem validated_eq_ok_iff
    {s' : Settings} :
    s.validated = .ok s' ↔ s.violations = [] ∧ s' = s := by
  rw [← validate_eq_ok_iff]
  unfold validated
  cases s.validate <;> simp

/-- What validation says of settings, in place of the settings. -/
def reported (s : Settings) : List Violation :=
  match s.validate with
  | .ok _ => []
  | .error vs => vs

theorem reported_eq_violations
    (s : Settings) :
    s.reported = s.violations := by
  unfold reported validate
  cases s.violations <;> rfl

/-- What is reported of some fields is the same of settings that are the same
for the conditions on these fields. -/
theorem filter_violations_of_same
    (kept : String → Bool)
    (same : ∀ c : Condition, kept c.path = true → SameFor s s' c) :
    s'.violations.filter (fun v => kept v.field) =
      s.violations.filter (fun v => kept v.field) := by
  rw [violations_eq_verdicts, violations_eq_verdicts, List.filter_flatMap,
    List.filter_flatMap]
  refine List.flatMap_congr fun c _ => ?_
  rw [filter_verdict, filter_verdict]
  split_ifs with hkept
  · exact (same c hkept).verdict_eq
  · rfl

end Settings

/-! ## A field that is changed -/

/-- A field of the settings with a value to be put there. -/
inductive FieldChange
  | readSize (n : UInt64)
  | previewLength (n : UInt64)
  | bindAddress (a : String)
  | maxConnections (n : UInt64)
  | logLevel (l : String)
  | logFormat (f : LogFormat)
  | metricsEnabled (b : Bool)
  | metricsAddress (a : String)
  deriving Repr, DecidableEq

namespace FieldChange

/-- The condition that a field takes part in; there are fields with none. -/
def condition? : FieldChange → Option Condition
  | readSize _ => some .readSize
  | previewLength _ => some .previewLength
  | bindAddress _ => some .bindAddress
  | maxConnections _ => some .maxConnections
  | logLevel _ => none
  | logFormat _ => none
  | metricsEnabled _ => some .metricsAddress
  | metricsAddress _ => some .metricsAddress

/-- The path that is named if the changed field is at fault. -/
def path? (x : FieldChange) : Option String :=
  x.condition?.map Condition.path

end FieldChange

namespace Settings

open Condition

/-- The settings with one field changed. -/
def change (s : Settings) : FieldChange → Settings
  | .readSize n =>
      { s with connection := { s.connection with readSize := n } }
  | .previewLength n =>
      { s with connection := { s.connection with previewLength := n } }
  | .bindAddress a =>
      { s with listener := { s.listener with bindAddress := a } }
  | .maxConnections n =>
      { s with listener := { s.listener with maxConnections := n } }
  | .logLevel l => { s with report := { s.report with logLevel := l } }
  | .logFormat f => { s with report := { s.report with logFormat := f } }
  | .metricsEnabled b =>
      { s with report := { s.report with metricsEnabled := b } }
  | .metricsAddress a =>
      { s with report := { s.report with metricsAddress := a } }

/-- A change of one field is none for the conditions on others. -/
theorem sameFor_change
    (s : Settings)
    {x : FieldChange} {c : Condition}
    (other : x.path? ≠ some c.path) :
    SameFor s (s.change x) c := by
  cases c <;> cases x <;>
    first
    | exact absurd rfl other
    | rfl
    | exact ⟨rfl, rfl⟩

/-- Of two settings the second is the first put right: it meets the conditions
whose fields are named, and is the same for all others. -/
def PutRight (s s' : Settings) : Prop :=
  ∀ c : Condition,
    (c.path ∈ s.reported.map Violation.field → Met s' c) ∧
    (c.path ∉ s.reported.map Violation.field → SameFor s s' c)

theorem mem_fields_reported
    {s : Settings} {c : Condition}
    (not_met : ¬ Met s c) :
    c.path ∈ s.reported.map Violation.field := by
  rw [reported_eq_violations, violations_eq_map, List.map_map]
  refine List.mem_map.mpr ⟨c, ?_, field_complaint s c⟩
  simpa [unmet, not_met] using mem_inOrder c

/-- **What validation reports**, of any settings.

* They are valid exactly if reads are of at least one octet and at most
  `maxReadSize`, previews are not empty, the address to listen at is one, there
  may be at least one connection, and the address of the counters is one unless
  they are not published.
* Otherwise just the conditions that are not met are reported: in order, each
  once, and by its own field.
* If one field is changed, whatever is reported of the other fields stays as it
  is and where it is.
* Settings in which the named fields, and only these, are put right are valid. -/
theorem reported_conditions
    (s : Settings) :
    (s.validate = .ok s ↔
      (0 < s.connection.readSize.toNat ∧
        s.connection.readSize.toNat ≤ maxReadSize) ∧
      0 < s.connection.previewLength.toNat ∧
      (SocketAddress.parse? s.listener.bindAddress).isSome = true ∧
      0 < s.listener.maxConnections.toNat ∧
      (s.report.metricsEnabled = true →
        (SocketAddress.parse? s.report.metricsAddress).isSome = true)) ∧
    (s.validate ≠ .ok s →
      unmet s ≠ [] ∧
      s.validate = .error ((unmet s).map (complaint s)) ∧
      ((unmet s).map (complaint s)).map Violation.field =
        (unmet s).map path) ∧
    (∀ x : FieldChange,
      (s.change x).reported.filter (fun v => x.path? ≠ some v.field) =
        s.reported.filter (fun v => x.path? ≠ some v.field)) ∧
    (∀ s', s.PutRight s' → s'.validate = .ok s') := by
  have hvalid : ∀ s : Settings,
      s.validate = .ok s ↔ ∀ c, Met s c := by
    intro s
    rw [validate_eq_ok_iff, violations_eq_nil_iff, and_iff_left rfl]
  refine ⟨?valid, ?invalid, ?change, ?right⟩
  case valid =>
    rw [hvalid]
    constructor
    · intro met
      exact ⟨met .readSize, met .previewLength, met .bindAddress,
        met .maxConnections, met .metricsAddress⟩
    · rintro ⟨hread, hpreview, hbind, hmax, hmetrics⟩ c
      cases c with
      | readSize => exact hread
      | previewLength => exact hpreview
      | bindAddress => exact hbind
      | maxConnections => exact hmax
      | metricsAddress => exact hmetrics
  case invalid =>
    intro invalid
    have hunmet : unmet s ≠ [] := by
      rwa [ne_eq, unmet_eq_nil_iff, ← hvalid]
    refine ⟨hunmet, ?_, ?_⟩
    · rw [validate, violations_eq_map]
      cases hlist : unmet s with
      | nil => exact absurd hlist hunmet
      | cons c rest => rfl
    · rw [List.map_map]
      exact List.map_congr_left fun c _ => field_complaint s c
  case change =>
    intro x
    rw [reported_eq_violations, reported_eq_violations]
    refine filter_violations_of_same (fun p => x.path? ≠ some p) ?_
    intro c other
    exact s.sameFor_change (of_decide_eq_true other)
  case right =>
    intro s' right
    rw [hvalid]
    intro c
    by_cases named : c.path ∈ s.reported.map Violation.field
    · exact (right c).1 named
    · have met : Met s c := by
        by_contra not_met
        exact named (mem_fields_reported not_met)
      exact ((right c).2 named).met_iff.mpr met

/-- Four fields are at fault.  The address to listen at is changed, which leaves
the other three; and all four are put right. -/
theorem reported_conditions_four_at_fault :
    let s : Settings :=
      { connection := { readSize := 65537, previewLength := 0 }
        listener := { bindAddress := "localhost:80" }
        report := { metricsEnabled := true, metricsAddress := "nowhere" } }
    let x : FieldChange := .bindAddress "[::1]:0"
    let s' : Settings :=
      { connection := { readSize := 65536, previewLength := 1 }
        listener := { bindAddress := "[::1]:0" }
        report := { metricsEnabled := true, metricsAddress := "0.0.0.0:1" } }
    s.validate ≠ .ok s ∧
    s.validate =
      .error
        [.readSizeTooLarge, .previewLengthZero, .bindAddress "localhost:80",
          .metricsAddress "nowhere"] ∧
    (s.change x).reported.filter (fun v => x.path? ≠ some v.field) =
      [.readSizeTooLarge, .previewLengthZero, .metricsAddress "nowhere"] ∧
    s.PutRight s' ∧
    s'.validate = .ok s' := by
  intro s x s'
  obtain ⟨hvalid, hinvalid, hchange, hright⟩ := reported_conditions s
  have invalid : s.validate ≠ .ok s :=
    fun valid => absurd (hvalid.mp valid).2.1 (by decide)
  have hcomplaints :
      (unmet s).map (complaint s) =
        [.readSizeTooLarge, .previewLengthZero, .bindAddress "localhost:80",
          .metricsAddress "nowhere"] := by
    decide +kernel
  have hreported : s.validate = _ := (hinvalid invalid).2.1
  rw [hcomplaints] at hreported
  have hfields :
      s.reported.map Violation.field =
        ["connection.read_size", "connection.preview_len",
          "listener.bind_address", "observability.metrics_address"] := by
    rw [reported, hreported]
    rfl
  have right : s.PutRight s' := by
    intro c
    rw [hfields]
    cases c with
    | maxConnections => exact ⟨fun named => absurd named (by decide), fun _ => rfl⟩
    | _ =>
        exact ⟨fun _ => by decide +kernel, fun other => absurd (by decide) other⟩
  refine ⟨invalid, hreported, ?_, right, hright s' right⟩
  rw [hchange, reported, hreported]
  decide

end Settings

end StreamServer
