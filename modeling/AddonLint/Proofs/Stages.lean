import AddonLint.CommandLine
import AddonLint.Proofs.Pipelines
import AddonLint.Proofs.Registrations

/-!
# Stages of a validation

A validation goes through its stages in a fixed order. The first stage that fails ends
it with its own error. If no stage fails, the output is the report on the subject that
the stages make up.
-/
namespace AddonLint.Validate

/-- The stages before the rules. -/
inductive Stage where
  | directory
  | environment
  | version
  | filter
  | configuration
  | overrides
  | load
  | selection
  | extraction
  deriving DecidableEq, Repr

def Stage.rank : Stage → Nat
  | .directory => 0
  | .environment => 1
  | .version => 2
  | .filter => 3
  | .configuration => 4
  | .overrides => 5
  | .load => 6
  | .selection => 7
  | .extraction => 8

theorem Stage.rank_injective {a b : Stage} (h : a.rank = b.rank) : a = b := by
  cases a <;> cases b <;> first | rfl | cases h

/-- All that a validation goes by, but for the clock. -/
structure Input where
  files : FileSystem
  config : Option String
  lookup : String → Option String
  request : ValidateRequest

namespace Input

def run (i : Input) (now : Instant) : Except RunError Output :=
  Validate.run i.files i.config i.lookup now i.request

def invocation (i : Input) : CommandLine.Invocation := ⟨i.config, .validate i.request⟩

end Input

/-! ### What the stages come to -/

/-- The checked request. -/
structure Prepares (i : Input) (p : Prepared) : Prop where
  directory : Prepared.checkDirectory i.files i.request.directory = .ok p.directory
  environment : Environment.parse i.request.environment = .ok p.environment
  version : VersionRequest.parse i.request.version = .ok p.version
  registry : Rules.registry = .ok p.registry
  filter : Filter.parse i.request.disabled i.request.enabled p.registry = .ok p.filter

def Configures (i : Input) (s : Settings) : Prop :=
  ∃ loaded, Settings.load i.files i.config i.lookup = .ok loaded ∧
    loaded.override i.request.overrides = .ok s

/-- The manifest, its artifact and the bundles, which make up the subject. -/
def Yields (i : Input) (p : Prepared) (s : Settings) (subject : Subject) : Prop :=
  ∃ manifest artifact bundles,
    Manifest.load i.files p.directory p.environment = .ok manifest ∧
    manifest.select p.version = .ok artifact ∧
    Cache.extract i.files (s.cacheFor p.directory) artifact.indexImage
      manifest.metadata.operatorName = .ok bundles ∧
    subject = ⟨manifest.environment, manifest.metadata, artifact, bundles⟩

/-- A stage fails with an error, given what the stages that it builds on come to. -/
def Fails (i : Input) (e : RunError) : Stage → Prop
  | .directory => ∃ cause, Prepared.checkDirectory i.files i.request.directory = .error cause ∧
      e = .preparing (.config cause)
  | .environment => ∃ cause, Environment.parse i.request.environment = .error cause ∧
      e = .preparing (.config cause)
  | .version => ∃ cause, VersionRequest.parse i.request.version = .error cause ∧
      e = .preparing (.config cause)
  | .filter => ∃ registry cause, Rules.registry = .ok registry ∧
      Filter.parse i.request.disabled i.request.enabled registry = .error cause ∧
      e = .preparing (.config cause)
  | .configuration => ∃ cause, Settings.load i.files i.config i.lookup = .error cause ∧
      e = .settings cause
  | .overrides => ∃ loaded cause, Settings.load i.files i.config i.lookup = .ok loaded ∧
      loaded.override i.request.overrides = .error cause ∧ e = .settings cause
  | .load => ∃ p cause, Prepares i p ∧
      Manifest.load i.files p.directory p.environment = .error cause ∧
      e = .validating p.directory (.load cause)
  | .selection => ∃ p manifest cause, Prepares i p ∧
      Manifest.load i.files p.directory p.environment = .ok manifest ∧
      manifest.select p.version = .error cause ∧ e = .validating p.directory (.resolution cause)
  | .extraction => ∃ p s manifest artifact cause, Prepares i p ∧ Configures i s ∧
      Manifest.load i.files p.directory p.environment = .ok manifest ∧
      manifest.select p.version = .ok artifact ∧
      Cache.extract i.files (s.cacheFor p.directory) artifact.indexImage
        manifest.metadata.operatorName = .error cause ∧
      e = .validating p.directory (.extraction cause)

/-- No stage before a stage fails. -/
def Reaches (i : Input) (stage : Stage) : Prop :=
  ∀ earlier, earlier.rank < stage.rank → ∀ e, ¬ Fails i e earlier

/-- A stage is the first one to fail. -/
structure FailsFirst (i : Input) (stage : Stage) (e : RunError) : Prop where
  reaches : Reaches i stage
  fails : Fails i e stage

theorem reaches_directory (i : Input) : Reaches i .directory :=
  fun _ h => absurd h (Nat.not_lt_zero _)

/-- A stage is reached if the stage before it was and did not fail. -/
theorem Reaches.next {i : Input} {stage next : Stage} (h : Reaches i stage)
    (hnext : next.rank = stage.rank + 1) (hpass : ∀ e, ¬ Fails i e stage) : Reaches i next := by
  intro earlier hearlier e
  rw [hnext] at hearlier
  rcases Nat.lt_succ_iff_lt_or_eq.1 hearlier with hlt | heq
  · exact h earlier hlt e
  · obtain rfl := Stage.rank_injective heq
    exact hpass e

/-- The extraction is the last stage before the rules. -/
theorem Reaches.passes {i : Input} (h : Reaches i .extraction)
    (hpass : ∀ e, ¬ Fails i e .extraction) (stage : Stage) (e : RunError) : ¬ Fails i e stage := by
  have hrank : stage.rank ≤ Stage.extraction.rank := by cases stage <;> decide
  rcases Nat.lt_or_eq_of_le hrank with hlt | heq
  · exact h stage hlt e
  · obtain rfl := Stage.rank_injective heq
    exact hpass e

/-! ### From stage to stage -/

section Cases

variable {i : Input}

theorem Prepares.unique {p p' : Prepared} (h : Prepares i p) (h' : Prepares i p') : p = p' := by
  obtain ⟨directory, environment, version, registry, filter⟩ := p
  obtain ⟨directory', environment', version', registry', filter'⟩ := p'
  obtain rfl : directory = directory' := Except.ok.inj (h.directory.symm.trans h'.directory)
  obtain rfl : environment = environment' :=
    Except.ok.inj (h.environment.symm.trans h'.environment)
  obtain rfl : version = version' := Except.ok.inj (h.version.symm.trans h'.version)
  obtain rfl : registry = registry' := Except.ok.inj (h.registry.symm.trans h'.registry)
  obtain rfl : filter = filter' := Except.ok.inj (h.filter.symm.trans h'.filter)
  rfl

theorem Configures.unique {s s' : Settings} (h : Configures i s) (h' : Configures i s') :
    s = s' := by
  obtain ⟨loaded, hloaded, hs⟩ := h
  obtain ⟨loaded', hloaded', hs'⟩ := h'
  obtain rfl : loaded = loaded' := Except.ok.inj (hloaded.symm.trans hloaded')
  exact Except.ok.inj (hs.symm.trans hs')

variable (i) in
/-- The first four stages check the request. -/
theorem prepare_cases :
    (∃ stage cause, FailsFirst i stage (.preparing (.config cause)) ∧
      Prepared.ofRequest i.files i.request = .error cause) ∨
    ∃ p, Prepares i p ∧ Reaches i .configuration ∧
      Prepared.ofRequest i.files i.request = .ok p := by
  have hreaches := reaches_directory i
  cases hdirectory : Prepared.checkDirectory i.files i.request.directory with
  | error cause =>
    refine .inl ⟨.directory, cause, ⟨hreaches, cause, hdirectory, rfl⟩, ?_⟩
    rw [Prepared.ofRequest, hdirectory]
    rfl
  | ok directory =>
  have hreaches : Reaches i .environment := by
    refine hreaches.next rfl ?_
    rintro e ⟨cause, h, -⟩
    cases hdirectory.symm.trans h
  cases henvironment : Environment.parse i.request.environment with
  | error cause =>
    refine .inl ⟨.environment, cause, ⟨hreaches, cause, henvironment, rfl⟩, ?_⟩
    rw [Prepared.ofRequest, hdirectory, henvironment]
    rfl
  | ok environment =>
  have hreaches : Reaches i .version := by
    refine hreaches.next rfl ?_
    rintro e ⟨cause, h, -⟩
    cases henvironment.symm.trans h
  cases hversion : VersionRequest.parse i.request.version with
  | error cause =>
    refine .inl ⟨.version, cause, ⟨hreaches, cause, hversion, rfl⟩, ?_⟩
    rw [Prepared.ofRequest, hdirectory, henvironment, hversion]
    rfl
  | ok version =>
  have hreaches : Reaches i .filter := by
    refine hreaches.next rfl ?_
    rintro e ⟨cause, h, -⟩
    cases hversion.symm.trans h
  -- The registry does not depend on the input, so this stage can only fail on the filter.
  obtain ⟨registry, hregistry, -⟩ := Rules.registry_eq_ok
  have hrequest : Prepared.ofRequest i.files i.request =
      (Filter.parse i.request.disabled i.request.enabled registry).map
        (Prepared.mk directory environment version registry) := by
    rw [Prepared.ofRequest, hdirectory, henvironment, hversion, hregistry]
    change Filter.parse i.request.disabled i.request.enabled registry >>= _ = _
    cases Filter.parse i.request.disabled i.request.enabled registry <;> rfl
  rw [hrequest]
  cases hfilter : Filter.parse i.request.disabled i.request.enabled registry with
  | error cause =>
    exact .inl ⟨.filter, cause, ⟨hreaches, registry, cause, hregistry, hfilter, rfl⟩, rfl⟩
  | ok filter =>
    refine .inr ⟨⟨directory, environment, version, registry, filter⟩,
      ⟨hdirectory, henvironment, hversion, hregistry, hfilter⟩, ?_, rfl⟩
    refine hreaches.next rfl ?_
    rintro e ⟨registry', cause, h, hcause, -⟩
    obtain rfl : registry = registry' := Except.ok.inj (hregistry.symm.trans h)
    cases hfilter.symm.trans hcause

/-- The next two stages gather the settings. -/
theorem settings_cases (hreaches : Reaches i .configuration) :
    (∃ stage cause, FailsFirst i stage (.settings cause) ∧
      settings i.files i.config i.lookup i.request = .error cause) ∨
    ∃ s, Configures i s ∧ Reaches i .load ∧
      settings i.files i.config i.lookup i.request = .ok s := by
  unfold settings
  cases hload : Settings.load i.files i.config i.lookup with
  | error cause =>
    exact .inl ⟨.configuration, cause, ⟨hreaches, cause, hload, rfl⟩, rfl⟩
  | ok loaded =>
  have hreaches : Reaches i .overrides := by
    refine hreaches.next rfl ?_
    rintro e ⟨cause, h, -⟩
    cases hload.symm.trans h
  change (∃ stage cause, _ ∧ loaded.override i.request.overrides = _) ∨
    ∃ s, _ ∧ _ ∧ loaded.override i.request.overrides = _
  cases hoverride : loaded.override i.request.overrides with
  | error cause =>
    exact .inl ⟨.overrides, cause, ⟨hreaches, loaded, cause, hload, hoverride, rfl⟩, rfl⟩
  | ok s =>
    refine .inr ⟨s, ⟨loaded, hload, hoverride⟩, hreaches.next rfl ?_, rfl⟩
    rintro e ⟨loaded', cause, h, hcause, -⟩
    obtain rfl : loaded = loaded' := Except.ok.inj (hload.symm.trans h)
    cases hoverride.symm.trans hcause

def Input.pipeline (i : Input) (p : Prepared) (s : Settings) : Pipeline where
  load := Manifest.load i.files
  extractor := Deadline.inTime (Cache.extract i.files (s.cacheFor p.directory)) s.deadline
  registry := p.registry
  jobs := s.jobs.toNat

/-- A deadline that is never missed makes no difference. -/
theorem inTime_eq (inner : Extractor) (deadline : Duration) :
    Deadline.inTime inner deadline = inner := rfl

/-- The last stages make up the subject, on which the rules are run. -/
theorem pipeline_cases {p : Prepared} {s : Settings} (hp : Prepares i p) (hs : Configures i s)
    (hreaches : Reaches i .load) :
    (∃ stage cause, FailsFirst i stage (.validating p.directory cause) ∧
      (i.pipeline p s).run p.directory p.environment p.version p.filter = .error cause) ∨
    ∃ subject, Yields i p s subject ∧ (∀ stage e, ¬ Fails i e stage) ∧
      (i.pipeline p s).run p.directory p.environment p.version p.filter =
        .ok ⟨subject, Run.report s.jobs.toNat p.filter p.registry subject⟩ := by
  cases hload : Manifest.load i.files p.directory p.environment with
  | error cause =>
    refine .inl ⟨.load, .load cause, ⟨hreaches, p, cause, hp, hload, rfl⟩, ?_⟩
    exact Pipeline.run_of_load_error (p := i.pipeline p s) hload
  | ok manifest =>
  have hreaches : Reaches i .selection := by
    refine hreaches.next rfl ?_
    rintro e ⟨p', cause, hp', h, -⟩
    obtain rfl := hp.unique hp'
    cases hload.symm.trans h
  have hload' : (i.pipeline p s).load p.directory p.environment = .ok manifest := hload
  cases hselect : manifest.select p.version with
  | error cause =>
    refine .inl ⟨.selection, .resolution cause,
      ⟨hreaches, p, manifest, cause, hp, hload, hselect, rfl⟩, ?_⟩
    exact Pipeline.run_of_select_error hload' hselect
  | ok artifact =>
  have hreaches : Reaches i .extraction := by
    refine hreaches.next rfl ?_
    rintro e ⟨p', manifest', cause, hp', hload', h, -⟩
    obtain rfl := hp.unique hp'
    obtain rfl := Except.ok.inj (hload.symm.trans hload')
    cases hselect.symm.trans h
  -- The answer is in time, so the deadline leaves the extraction as it is.
  have hextractor : (i.pipeline p s).extractor =
      Cache.extract i.files (s.cacheFor p.directory) := by
    unfold Input.pipeline
    dsimp only
    rw [inTime_eq]
  rw [Pipeline.run_of_select hload' hselect, hextractor]
  cases hbundles : Cache.extract i.files (s.cacheFor p.directory) artifact.indexImage
      manifest.metadata.operatorName with
  | error cause =>
    exact .inl ⟨.extraction, .extraction cause,
      ⟨hreaches, p, s, manifest, artifact, cause, hp, hs, hload, hselect, hbundles, rfl⟩, rfl⟩
  | ok bundles =>
    refine .inr ⟨⟨manifest.environment, manifest.metadata, artifact, bundles⟩,
      ⟨manifest, artifact, bundles, hload, hselect, hbundles, rfl⟩, ?_, rfl⟩
    apply hreaches.passes
    rintro e ⟨p', s', manifest', artifact', cause, hp', hs', hload', hselect', h, -⟩
    obtain rfl := hp.unique hp'
    obtain rfl := hs.unique hs'
    obtain rfl := Except.ok.inj (hload.symm.trans hload')
    obtain rfl := Except.ok.inj (hselect.symm.trans hselect')
    cases hbundles.symm.trans h

theorem validation_eq {p : Prepared} {s : Settings}
    (hp : Prepared.ofRequest i.files i.request = .ok p)
    (hs : settings i.files i.config i.lookup i.request = .ok s) :
    validation i.files i.config i.lookup i.request =
      ((i.pipeline p s).run p.directory p.environment p.version p.filter).mapError
        (.validating p.directory) := by
  rw [validation, hp, hs]
  rfl

variable (i) in
/-- A validation ends as its first failing stage does, or with its report. -/
theorem run_cases (now : Instant) :
    (∃ stage e, FailsFirst i stage e ∧ i.run now = .error e) ∨
    ∃ p s subject, Prepares i p ∧ Configures i s ∧ Yields i p s subject ∧
      (∀ stage e, ¬ Fails i e stage) ∧
      i.run now =
        let report := Run.report s.jobs.toNat p.filter p.registry subject
        .ok ⟨exitCode report, report.render subject i.request.format now, none⟩ := by
  unfold Input.run Validate.run
  rcases prepare_cases i with ⟨stage, cause, hfirst, hrequest⟩ | ⟨p, hp, hreaches, hrequest⟩
  · refine .inl ⟨stage, _, hfirst, ?_⟩
    rw [validation, hrequest]
    rfl
  rcases settings_cases hreaches with ⟨stage, cause, hfirst, hsettings⟩ | ⟨s, hs, hreaches, hsettings⟩
  · refine .inl ⟨stage, _, hfirst, ?_⟩
    rw [validation, hrequest, hsettings]
    rfl
  rw [validation_eq hrequest hsettings]
  rcases pipeline_cases hp hs hreaches with
    ⟨stage, cause, hfirst, hrun⟩ | ⟨subject, hsubject, hpass, hrun⟩
  · refine .inl ⟨stage, _, hfirst, ?_⟩
    rw [hrun]
    rfl
  · refine .inr ⟨p, s, subject, hp, hs, hsubject, hpass, ?_⟩
    rw [hrun]
    rfl

/-! ### The first failure -/

theorem Fails.unique {stage : Stage} {e e' : RunError} (h : Fails i e stage)
    (h' : Fails i e' stage) : e = e' := by
  cases stage with
  | directory | environment | version | configuration =>
    obtain ⟨cause, hcause, rfl⟩ := h
    obtain ⟨cause', hcause', rfl⟩ := h'
    rw [Except.error.inj (hcause.symm.trans hcause')]
  | filter =>
    obtain ⟨registry, cause, hregistry, hcause, rfl⟩ := h
    obtain ⟨registry', cause', hregistry', hcause', rfl⟩ := h'
    obtain rfl := Except.ok.inj (hregistry.symm.trans hregistry')
    rw [Except.error.inj (hcause.symm.trans hcause')]
  | overrides =>
    obtain ⟨loaded, cause, hloaded, hcause, rfl⟩ := h
    obtain ⟨loaded', cause', hloaded', hcause', rfl⟩ := h'
    obtain rfl := Except.ok.inj (hloaded.symm.trans hloaded')
    rw [Except.error.inj (hcause.symm.trans hcause')]
  | load =>
    obtain ⟨p, cause, hp, hcause, rfl⟩ := h
    obtain ⟨p', cause', hp', hcause', rfl⟩ := h'
    obtain rfl := hp.unique hp'
    rw [Except.error.inj (hcause.symm.trans hcause')]
  | selection =>
    obtain ⟨p, manifest, cause, hp, hload, hcause, rfl⟩ := h
    obtain ⟨p', manifest', cause', hp', hload', hcause', rfl⟩ := h'
    obtain rfl := hp.unique hp'
    obtain rfl := Except.ok.inj (hload.symm.trans hload')
    rw [Except.error.inj (hcause.symm.trans hcause')]
  | extraction =>
    obtain ⟨p, s, manifest, artifact, cause, hp, hs, hload, hselect, hcause, rfl⟩ := h
    obtain ⟨p', s', manifest', artifact', cause', hp', hs', hload', hselect', hcause', rfl⟩ := h'
    obtain rfl := hp.unique hp'
    obtain rfl := hs.unique hs'
    obtain rfl := Except.ok.inj (hload.symm.trans hload')
    obtain rfl := Except.ok.inj (hselect.symm.trans hselect')
    rw [Except.error.inj (hcause.symm.trans hcause')]

theorem FailsFirst.unique {stage stage' : Stage} {e e' : RunError} (h : FailsFirst i stage e)
    (h' : FailsFirst i stage' e') : e = e' := by
  have hrank : stage.rank = stage'.rank := by
    by_contra hne
    rcases Nat.lt_or_gt_of_ne hne with hlt | hgt
    · exact h'.reaches stage hlt e h.fails
    · exact h.reaches stage' hgt e' h'.fails
  obtain rfl := Stage.rank_injective hrank
  exact h.fails.unique h'.fails

/-- The first failing stage decides, whatever the later ones would come to. -/
theorem run_of_failsFirst {stage : Stage} {e : RunError} (h : FailsFirst i stage e)
    (now : Instant) : i.run now = .error e := by
  rcases run_cases i now with ⟨stage', e', hfirst, hrun⟩ | ⟨p, s, subject, -, -, -, hpass, -⟩
  · rw [h.unique hfirst, hrun]
  · exact absurd h.fails (hpass stage e)

end Cases

end AddonLint.Validate
