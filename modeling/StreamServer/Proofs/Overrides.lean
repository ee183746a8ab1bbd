import StreamServer.Program
import StreamServer.Proofs.Capacity

/-!
# Settings that are overridden

The arguments of a program can replace two settings of its file.  The settings
of a file are validated before that, and the result is validated once more, so
what a program runs with is right whatever was replaced; but an override cannot
make up for a violation in the file.  Where a file has one, its violations are
reported, not those of the settings that would have been used.

The outcome is that of validating the overridden settings alone exactly if there
is no file, or the file has no violation, or the override leaves the verdict on
the address as it is.
-/

namespace StreamServer

namespace Settings

variable {f : Settings} {o : Overrides}

/-- The content of a file describes settings, valid or not. -/
def Describes (content : Except Fault Bytes) (f : Settings) : Prop :=
  ∃ octets cs,
    content = .ok octets ∧
    Utf8.decode? octets = some cs ∧
    ofText (String.ofList cs) = .ok f

/-- The settings of a program before anything is replaced: those that its file
describes, or the defaults if it names no file. -/
def Given
    (path : Option String)
    (content : String → Except Fault Bytes)
    (f : Settings) : Prop :=
  match path with
  | none => f = {}
  | some p => Describes (content p) f

/-- What comes of validating settings and nothing else. -/
def judged (g : Settings) : Except Ending Settings :=
  match g.violations with
  | [] => .ok g
  | vs => .error (.failed (.invalid vs))

theorem judged_of_valid
    (valid : f.violations = []) :
    f.judged = .ok f := by
  rw [judged, valid]

theorem judged_of_invalid
    (invalid : f.violations ≠ []) :
    f.judged = .error (.failed (.invalid f.violations)) := by
  unfold judged
  cases hvs : f.violations with
  | nil => exact absurd hvs invalid
  | cons v vs => rfl

theorem validated_of_valid
    (valid : f.violations = []) :
    f.validated = .ok f :=
  validated_eq_ok_iff.mpr ⟨valid, rfl⟩

theorem validated_of_invalid
    (invalid : f.violations ≠ []) :
    f.validated = .error (.invalid f.violations) := by
  unfold validated validate
  cases hvs : f.violations with
  | nil => exact absurd hvs invalid
  | cons v vs => rfl

/-- The settings of a file are validated as soon as they are read. -/
theorem ofContent_of_describes
    {content : Except Fault Bytes}
    (describes : Describes content f) :
    ofContent content = f.validated := by
  obtain ⟨octets, cs, rfl, hdecode, htext⟩ := describes
  simp only [ofContent, hdecode, parse, htext]
  rfl

theorem violations_default :
    ({} : Settings).violations = [] := by
  cbv

/-- Overriding changes no verdict but that on the address to listen at. -/
theorem violations_override_iff :
    f.violations = (f.override o).violations ↔
      f.bindAddressViolations = (f.override o).bindAddressViolations := by
  have hbefore :
      f.violations =
        (f.readSizeViolations ++ f.previewLengthViolations) ++
          (f.bindAddressViolations ++
            (f.maxConnectionsViolations ++
              f.metricsAddressViolations)) := by
    simp only [violations, List.append_assoc]
  have hafter :
      (f.override o).violations =
        (f.readSizeViolations ++ f.previewLengthViolations) ++
          ((f.override o).bindAddressViolations ++
            (f.maxConnectionsViolations ++
              f.metricsAddressViolations)) := by
    simp only [violations, List.append_assoc]
    rfl
  rw [hbefore, hafter, List.append_cancel_left_eq,
    List.append_cancel_right_eq]

end Settings

namespace ProgramCall

open Settings

variable {path : Option String} {o : Overrides} {f : Settings}
variable {content : String → Except Fault Bytes}

/-- If nothing is wrong with what is given, only the overridden settings are
judged. -/
theorem settings_of_valid
    (given : Given path content f)
    (valid : path = none ∨ f.violations = []) :
    (ProgramCall.run path o).settings content =
      (f.override o).judged := by
  have hnone : f.violations = [] := by
    rcases valid with rfl | hvalid
    · rw [show f = {} from given]
      exact violations_default
    · exact hvalid
  have hgiven :
      forProgram (path.map fun p => ofContent (content p)) o =
        (f.override o).validated := by
    cases path with
    | none =>
        rw [show f = {} from given]
        rfl
    | some p =>
        simp only [Option.map_some, forProgram, Option.getD_some,
          ofContent_of_describes given, validated_of_valid hnone]
        rfl
  simp only [ProgramCall.settings, hgiven]
  by_cases hafter : (f.override o).violations = []
  · rw [validated_of_valid hafter, judged_of_valid hafter]
  · rw [validated_of_invalid hafter, judged_of_invalid hafter]

/-- If something is wrong with what a file describes, that is what is
reported. -/
theorem settings_of_invalid
    {p : String}
    (given : Given (some p) content f)
    (invalid : f.violations ≠ []) :
    (ProgramCall.run (some p) o).settings content =
      .error (.failed (.invalid f.violations)) := by
  simp only [ProgramCall.settings, Option.map_some, forProgram,
    Option.getD_some, ofContent_of_describes given,
    validated_of_invalid invalid]
  rfl

/--
**Settings that are overridden**, for all arguments that ask for a run and
whatever settings the file describes.

* Without a file, or if the file describes valid settings, the overridden
  settings are judged: they are what the program runs with if they are valid,
  and otherwise their violations are reported, all of them.
* If the file describes settings with violations, just these are reported,
  whatever is overridden.
* So the overridden settings alone decide exactly if there is no file, or it has
  no violation, or overriding leaves the verdict on the address as it was.
-/
theorem settings_of_given
    {arguments : List String}
    (call : ProgramCall.ofArguments arguments = .run path o)
    (given : Given path content f) :
    let g : Settings :=
      { connection := f.connection
        listener :=
          { f.listener with
            bindAddress :=
              o.bindAddress.getD f.listener.bindAddress }
        report :=
          { f.report with
            logFormat := o.logFormat.getD f.report.logFormat } }
    let outcome := (ProgramCall.ofArguments arguments).settings content
    ((path = none ∨ f.violations = []) → outcome = g.judged) ∧
    (path ≠ none → f.violations ≠ [] →
      outcome = .error (.failed (.invalid f.violations))) ∧
    (outcome = g.judged ↔
      path = none ∨ f.violations = [] ∨
        f.bindAddressViolations = g.bindAddressViolations) := by
  intro g outcome
  have hg : g = f.override o := rfl
  have houtcome :
      outcome = (ProgramCall.run path o).settings content := by
    rw [← call]
  rw [houtcome, hg]
  refine ⟨settings_of_valid given, ?_, ?_⟩
  · intro some_path invalid
    obtain ⟨p, rfl⟩ := Option.ne_none_iff_exists'.mp some_path
    exact settings_of_invalid given invalid
  · cases path with
    | none => simp [settings_of_valid given (Or.inl rfl)]
    | some p =>
        by_cases invalid : f.violations = []
        · simp [settings_of_valid given (Or.inr invalid), invalid]
        · rw [settings_of_invalid given invalid, ← violations_override_iff]
          by_cases hafter : (f.override o).violations = []
          · simp [judged_of_valid hafter, invalid, hafter]
          · simp [judged_of_invalid hafter, invalid]

/-- A file with valid settings, two of which are replaced. -/
theorem settings_of_given_two_replaced :
    let arguments :=
      ["--config=a.toml", "-b[::1]:0", "--log-format", "json"]
    let content : String → Except Fault Bytes :=
      fun _ => .ok (Bytes.ofString "[connection]\nread_size = 300\n")
    let o : Overrides := ⟨some "[::1]:0", some .json⟩
    let f : Settings := { connection := { readSize := 300 } }
    let g : Settings :=
      { connection := { readSize := 300 }
        listener := { bindAddress := "[::1]:0" }
        report := { logFormat := .json } }
    ProgramCall.ofArguments arguments = .run (some "a.toml") o ∧
    Given (some "a.toml") content f ∧
    f.violations = [] ∧
    (ProgramCall.ofArguments arguments).settings content = .ok g := by
  have hvalid :
      ({ connection := { readSize := 300 } } :
        Settings).violations = [] := by
    cbv
  have hafter :
      ({ connection := { readSize := 300 }
         listener := { bindAddress := "[::1]:0" }
         report := { logFormat := .json } } :
        Settings).violations = [] := by
    cbv
  intro arguments content o f g
  have hcall :
      ProgramCall.ofArguments arguments = .run (some "a.toml") o := by
    cbv
  have hgiven : Given (some "a.toml") content f := by
    refine
      ⟨_, "[connection]\nread_size = 300\n".toList, rfl, by cbv, by cbv⟩
  have houtcome := (settings_of_given hcall hgiven).1 (Or.inr hvalid)
  exact ⟨hcall, hgiven, hvalid, houtcome.trans (judged_of_valid hafter)⟩

/-- A valid address among the arguments does not make up for one in the file
that is none, though the settings would be valid with it. -/
theorem override_comes_too_late :
    let arguments := ["-c", "config.toml", "-b", "127.0.0.1:0"]
    let content : String → Except Fault Bytes :=
      fun _ => .ok (Bytes.ofString "[listener]\nbind_address = 'q'\n")
    let o : Overrides := { bindAddress := some "127.0.0.1:0" }
    let f : Settings := { listener := { bindAddress := "q" } }
    let g : Settings := { listener := { bindAddress := "127.0.0.1:0" } }
    ProgramCall.ofArguments arguments = .run (some "config.toml") o ∧
    Given (some "config.toml") content f ∧
    f.override o = g ∧
    g.judged = .ok g ∧
    (ProgramCall.ofArguments arguments).settings content =
      .error (.failed (.invalid [.bindAddress "q"])) := by
  have hinvalid :
      ({ listener := { bindAddress := "q" } } : Settings).violations =
        [.bindAddress "q"] := by
    cbv
  have hafter :
      ({ listener := { bindAddress := "127.0.0.1:0" } } :
        Settings).violations = [] := by
    cbv
  intro arguments content o f g
  have hcall :
      ProgramCall.ofArguments arguments =
        .run (some "config.toml") o := by
    cbv
  have hgiven : Given (some "config.toml") content f := by
    refine
      ⟨_, "[listener]\nbind_address = 'q'\n".toList, rfl, by cbv, by cbv⟩
  have hne : f.violations ≠ [] := by
    rw [hinvalid]
    exact List.cons_ne_nil _ _
  refine ⟨hcall, hgiven, rfl, judged_of_valid hafter, ?_⟩
  rw [hcall, settings_of_invalid hgiven hne, hinvalid]

end ProgramCall

end StreamServer
