import AddonLint.Proofs.Fallible
import AddonLint.Proofs.Listings
import AddonLint.Proofs.Runs
import AddonLint.Proofs.Stages

/-!
# What decides a validation

The outcome of a stage depends on the input of that stage and of the stages before it,
and on nothing else. So whatever is wrong with the input of later stages, the error of
a validation is that of its first failing stage.
-/
namespace AddonLint.Validate

/-- Two validations have the same input for a stage. -/
def Agrees (i j : Input) : Stage → Prop
  | .directory => j.request.directory = i.request.directory ∧
      j.files.absolute i.request.directory = i.files.absolute i.request.directory ∧
      ∀ path, i.files.absolute i.request.directory = .ok path →
        j.files.isDirectory path = i.files.isDirectory path
  | .environment => j.request.environment = i.request.environment
  | .version => j.request.version = i.request.version
  | .filter => j.request.disabled = i.request.disabled ∧ j.request.enabled = i.request.enabled
  | .configuration => j.config = i.config ∧
      (∀ path ∈ i.config, j.files.readText path = i.files.readText path) ∧
      ∀ name ∈ [Settings.Overrides.cacheVariable, Settings.Overrides.timeoutVariable,
        Settings.Overrides.jobsVariable], j.lookup name = i.lookup name
  | .overrides => j.request.overrides = i.request.overrides
  | .load => ∀ p, Prepares i p →
      j.files.readText (Manifest.metadataPath p.directory p.environment) =
        i.files.readText (Manifest.metadataPath p.directory p.environment) ∧
      i.files.SameFiles j.files (Manifest.imageSetDirectory p.directory p.environment)
  | .selection => True
  | .extraction => j.files = i.files

/-- Two validations have the same input for a stage and for all stages before it. -/
def AgreesUpTo (i j : Input) (stage : Stage) : Prop :=
  ∀ earlier : Stage, earlier.rank ≤ stage.rank → Agrees i j earlier

section Agree

variable {i j : Input}

theorem checkDirectory_of_agrees (h : Agrees i j .directory) :
    Prepared.checkDirectory j.files j.request.directory =
      Prepared.checkDirectory i.files i.request.directory := by
  obtain ⟨hrequest, habsolute, hdirectory⟩ := h
  unfold Prepared.checkDirectory
  rw [hrequest, habsolute]
  cases hpath : i.files.absolute i.request.directory with
  | error e => rfl
  | ok path =>
    change (if j.files.isDirectory path then _ else _) =
      (if i.files.isDirectory path then _ else _)
    rw [hdirectory path hpath]

theorem loadSettings_of_agrees (h : Agrees i j .configuration) :
    Settings.load j.files j.config j.lookup = Settings.load i.files i.config i.lookup := by
  obtain ⟨hconfig, hfile, hlookup⟩ := h
  have hvariables : Settings.Overrides.ofVariables j.lookup =
      Settings.Overrides.ofVariables i.lookup := by
    unfold Settings.Overrides.ofVariables Settings.Overrides.ofVariable
    rw [hlookup _ (by simp), hlookup _ (by simp), hlookup _ (by simp)]
  have hoverrides : ∀ path ∈ i.config, Settings.Overrides.ofFile j.files path =
      Settings.Overrides.ofFile i.files path := by
    intro path hpath
    unfold Settings.Overrides.ofFile
    rw [hfile path hpath]
  unfold Settings.load
  rw [hvariables, hconfig]
  cases hpath : i.config with
  | none => rfl
  | some path =>
    dsimp only
    rw [hoverrides path hpath]

theorem loadManifest_of_same {fs fs' : FileSystem} {directory : String} {environment : Environment}
    (hmetadata : fs'.readText (Manifest.metadataPath directory environment) =
      fs.readText (Manifest.metadataPath directory environment))
    (hsets : fs.SameFiles fs' (Manifest.imageSetDirectory directory environment)) :
    Manifest.load fs' directory environment = Manifest.load fs directory environment := by
  have hread : ∀ schema path, fs'.readText path = fs.readText path →
      Manifest.readFile fs' schema path = Manifest.readFile fs schema path := by
    intro schema path hpath
    unfold Manifest.readFile
    rw [hpath]
  have hpaths : Manifest.imageSetPaths fs' directory environment =
      Manifest.imageSetPaths fs directory environment := by
    unfold Manifest.imageSetPaths
    dsimp only
    rw [hsets.filter_names]
  have hsetFiles : (Manifest.imageSetPaths fs directory environment).mapM
        (Manifest.readFile fs' ImageSet.schema) =
      (Manifest.imageSetPaths fs directory environment).mapM
        (Manifest.readFile fs ImageSet.schema) := by
    apply Fallible.mapM_congr_left
    intro path hpath
    obtain ⟨name, hname, rfl⟩ := List.mem_map.1 hpath
    exact hread _ _ (hsets.files name (List.mem_filter.1 hname).1).readText
  unfold Manifest.load
  rw [hread _ _ hmetadata, hpaths, hsetFiles]

/-- Agreement up to a stage includes every earlier stage. -/
theorem AgreesUpTo.mono {stage earlier : Stage} (h : AgreesUpTo i j stage)
    (hle : earlier.rank ≤ stage.rank) : AgreesUpTo i j earlier :=
  fun s hs => h s (Nat.le_trans hs hle)

theorem prepares_iff {p : Prepared} (h : AgreesUpTo i j .filter) :
    Prepares j p ↔ Prepares i p := by
  have hdirectory := checkDirectory_of_agrees (h .directory (by decide))
  have henvironment : j.request.environment = i.request.environment := h .environment (by decide)
  have hversion : j.request.version = i.request.version := h .version (by decide)
  obtain ⟨hdisabled, henabled⟩ := h .filter (by decide)
  constructor
  · rintro ⟨h1, h2, h3, h4, h5⟩
    rw [hdirectory] at h1
    rw [henvironment] at h2
    rw [hversion] at h3
    rw [hdisabled, henabled] at h5
    exact ⟨h1, h2, h3, h4, h5⟩
  · rintro ⟨h1, h2, h3, h4, h5⟩
    rw [← hdirectory] at h1
    rw [← henvironment] at h2
    rw [← hversion] at h3
    rw [← hdisabled, ← henabled] at h5
    exact ⟨h1, h2, h3, h4, h5⟩

theorem loadManifest_of_agrees {p : Prepared} (h : Agrees i j .load) (hp : Prepares i p) :
    Manifest.load j.files p.directory p.environment =
      Manifest.load i.files p.directory p.environment := by
  obtain ⟨hmetadata, hsets⟩ := h p hp
  exact loadManifest_of_same hmetadata hsets

/-- Whether a stage fails, and how, depends on its input and that of the stages before. -/
theorem fails_iff {stage : Stage} (h : AgreesUpTo i j stage) {e : RunError} :
    Fails j e stage ↔ Fails i e stage := by
  cases stage with
  | directory =>
    unfold Fails
    rw [checkDirectory_of_agrees (h .directory (by decide))]
  | environment =>
    have henvironment : j.request.environment = i.request.environment := h .environment (by decide)
    unfold Fails
    rw [henvironment]
  | version =>
    have hversion : j.request.version = i.request.version := h .version (by decide)
    unfold Fails
    rw [hversion]
  | filter =>
    obtain ⟨hdisabled, henabled⟩ := h .filter (by decide)
    unfold Fails
    rw [hdisabled, henabled]
  | configuration =>
    unfold Fails
    rw [loadSettings_of_agrees (h .configuration (by decide))]
  | overrides =>
    have hoverrides : j.request.overrides = i.request.overrides := h .overrides (by decide)
    unfold Fails
    rw [loadSettings_of_agrees (h .configuration (by decide)), hoverrides]
  | load =>
    have hprepares : ∀ p, Prepares j p ↔ Prepares i p :=
      fun p => prepares_iff (h.mono (by decide))
    simp only [Fails, hprepares]
    refine exists_congr fun p => exists_congr fun cause => and_congr_right fun hp => ?_
    rw [loadManifest_of_agrees (h .load (by decide)) hp]
  | selection =>
    have hprepares : ∀ p, Prepares j p ↔ Prepares i p :=
      fun p => prepares_iff (h.mono (by decide))
    simp only [Fails, hprepares]
    refine exists_congr fun p => exists_congr fun manifest => exists_congr fun cause =>
      and_congr_right fun hp => ?_
    rw [loadManifest_of_agrees (h .load (by decide)) hp]
  | extraction =>
    have hprepares : ∀ p, Prepares j p ↔ Prepares i p :=
      fun p => prepares_iff (h.mono (by decide))
    have hoverrides : j.request.overrides = i.request.overrides := h .overrides (by decide)
    have hfiles : j.files = i.files := h .extraction (by decide)
    have hsettings := loadSettings_of_agrees (h .configuration (by decide))
    rw [hfiles] at hsettings
    simp only [Fails, Configures, hprepares, hsettings, hoverrides, hfiles]

/-- What comes after the first failing stage has no influence on its error. -/
theorem FailsFirst.of_agreesUpTo {stage : Stage} {e : RunError} (h : FailsFirst i stage e)
    (hagrees : AgreesUpTo i j stage) : FailsFirst j stage e := by
  constructor
  · intro earlier hlt e' hfails
    have hearlier := hagrees.mono (Nat.le_of_lt hlt)
    exact h.reaches earlier hlt e' ((fails_iff hearlier).1 hfails)
  · exact (fails_iff hagrees).2 h.fails

end Agree

/-! ### The whole validation -/

/-- A validation is the fixed sequence of its stages. An error is that of the first stage
that fails, whatever the input of later stages, and leaves the output empty. Without a
failure the output is the report, and the exit code tells whether all selected rules
passed. -/
theorem run_stages (i : Input) (now : Instant) :
    (∀ e, i.run now = .error e ↔ ∃ stage, FailsFirst i stage e) ∧
    (∀ stage e, FailsFirst i stage e → ∀ j later, AgreesUpTo i j stage →
      j.run later = .error e) ∧
    (∀ e, i.run now = .error e →
      i.invocation.output i.files i.lookup now = ⟨1, "", some e.message⟩) ∧
    ((∀ stage e, ¬ Fails i e stage) →
      ∃ p s subject exit, Prepares i p ∧ Configures i s ∧ Yields i p s subject ∧
        i.run now = .ok ⟨exit, (Run.report s.jobs.toNat p.filter p.registry subject).render subject
          i.request.format now, none⟩ ∧
        (exit = 0 ∨ exit = 1) ∧
        (exit = 0 ↔ ∀ rule ∈ p.filter.select p.registry,
          ∃ v, rule.runner subject = .verdict v ∧ v.passed = true)) := by
  refine ⟨fun e => ⟨fun hrun => ?_, ?_⟩, ?_, ?_, ?_⟩
  · rcases run_cases i now with ⟨stage, e', hfirst, hrun'⟩ | ⟨p, s, subject, -, -, -, -, hrun'⟩
    · obtain rfl := Except.error.inj (hrun.symm.trans hrun')
      exact ⟨stage, hfirst⟩
    · cases hrun.symm.trans hrun'
  · rintro ⟨stage, hfirst⟩
    exact run_of_failsFirst hfirst now
  · intro stage e hfirst j later hagrees
    exact run_of_failsFirst (hfirst.of_agreesUpTo hagrees) later
  · intro e hrun
    have hvalidate : Validate.run i.files i.config i.lookup now i.request = .error e := hrun
    unfold Input.invocation CommandLine.Invocation.output
    dsimp only
    rw [hvalidate]
  · intro hpass
    rcases run_cases i now with ⟨stage, e, hfirst, -⟩ | ⟨p, s, subject, hp, hs, hsubject, -, hrun⟩
    · exact absurd hfirst.fails (hpass stage e)
    · refine ⟨p, s, subject, _, hp, hs, hsubject, hrun, ?_⟩
      unfold exitCode
      rw [← Run.isSuccess_ofEntries_iff, ← Run.report_eq_ofEntries s.jobs.toNat]
      cases (Run.report s.jobs.toNat p.filter p.registry subject).isSuccess <;> simp

/-- A missing directory is reported before an unknown environment. -/
example :
    Input.run ⟨⟨.directory [], none⟩, none, fun _ => none,
      { ValidateRequest.ofDirectory "/addon" with environment := "qa" }⟩ ⟨0, 0⟩ =
    .error (.preparing (.config (.notADirectory "/addon"))) := rfl

end AddonLint.Validate
