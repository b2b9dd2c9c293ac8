import AddonLint.Pipeline
import AddonLint.Proofs.Fallible

/-!
# What a pipeline asks for and what it comes to

A pipeline asks its extractor once, for the bundles of the artifact that it selected, and not at
all if there is no such artifact. The rules come last: they see the subject as it was put together
and have no part in a run that ends with an error.
-/
namespace AddonLint.Pipeline

/-- A loader answers for the environment that it is asked for. -/
def LoadsRequested (load : String → Environment → Except LoadError Manifest) : Prop :=
  ∀ directory environment manifest,
    load directory environment = .ok manifest → manifest.environment = environment

/-- A run with another extractor, which may have effects. -/
def runWith {m : Type → Type} [Monad m] (p : Pipeline)
    (extractor : (image operator : String) → m Extracted) (directory : String)
    (environment : Environment) (request : VersionRequest) (filter : Filter) :
    m (Except ValidateError Validation) :=
  (Pipeline.runM (fun directory environment => pure (p.load directory environment)) extractor
    p.registry p.jobs directory environment request filter).run

/-- What a run makes of the answer of its extractor. -/
def conclude (p : Pipeline) (filter : Filter) (manifest : Manifest) (artifact : Artifact)
    (answer : Extracted) : Except ValidateError Validation :=
  (answer.mapError .extraction).map fun bundles =>
    let subject : Subject := ⟨manifest.environment, manifest.metadata, artifact, bundles⟩
    ⟨subject, Run.report p.jobs filter p.registry subject⟩

/-- An extractor that writes down what it is asked for. -/
def recorded (extractor : Extractor) (image operator : String) :
    StateM (List (String × String)) Extracted := do
  modify (· ++ [(image, operator)])
  return extractor image operator

/-- The images and operators that a run asks its extractor for, in order. -/
def calls (p : Pipeline) (directory : String) (environment : Environment)
    (request : VersionRequest) (filter : Filter) : List (String × String) :=
  ((p.runWith (recorded p.extractor) directory environment request filter).run []).2

/-! ### The steps of a run, whatever the effects of its extractor -/

section Effects

variable {m : Type → Type} [Monad m]

theorem run_liftM {ε α : Type} (x : Except ε α) : (liftM x : ExceptT ε m α).run = pure x := rfl

variable [LawfulMonad m] (extractor : (image operator : String) → m Extracted) {p : Pipeline}
  {directory : String} {environment : Environment} {request : VersionRequest} {filter : Filter}
  {manifest : Manifest} {artifact : Artifact}

theorem resolveM_of_select_error {cause : ResolutionError}
    (h : manifest.select request = .error cause) :
    (manifest.resolveM request extractor).run = pure (.error (.resolution cause)) := by
  rw [Manifest.resolveM, h, ExceptT.run_bind, run_liftM, pure_bind]
  rfl

theorem resolveM_of_select (h : manifest.select request = .ok artifact) :
    (manifest.resolveM request extractor).run =
      (fun answer => (answer.mapError .extraction).map
        (Subject.mk manifest.environment manifest.metadata artifact)) <$>
          extractor artifact.indexImage manifest.metadata.operatorName := by
  rw [Manifest.resolveM, h, ExceptT.run_bind, run_liftM, pure_bind]
  change (_ <$> ExceptT.adapt _ (extractor artifact.indexImage _)).run = _
  rw [ExceptT.run_map, ExceptT.run_adapt, Functor.map_map]
  rfl

/-- Nothing is extracted for an addon that could not be loaded. -/
theorem runWith_of_load_error {cause : LoadError}
    (h : p.load directory environment = .error cause) :
    p.runWith extractor directory environment request filter = pure (.error (.load cause)) := by
  rw [runWith, runM, h, ExceptT.run_bind, ExceptT.run_adapt]
  change (Except.mapError _ <$> pure _) >>= _ = _
  rw [map_pure, pure_bind]
  rfl

theorem runWith_of_load (h : p.load directory environment = .ok manifest) :
    p.runWith extractor directory environment request filter =
      (Except.map fun subject => ⟨subject, Run.report p.jobs filter p.registry subject⟩) <$>
        (manifest.resolveM request extractor).run := by
  rw [runWith, runM, h, ExceptT.run_bind, ExceptT.run_adapt]
  change (Except.mapError _ <$> pure _) >>= _ = _
  rw [map_pure, pure_bind]
  exact ExceptT.run_map _ _

/-- Nothing is extracted either if there is no artifact. -/
theorem runWith_of_select_error {cause : ResolutionError}
    (h : p.load directory environment = .ok manifest)
    (hselect : manifest.select request = .error cause) :
    p.runWith extractor directory environment request filter =
      pure (.error (.resolution cause)) := by
  rw [runWith_of_load extractor h, resolveM_of_select_error extractor hselect, map_pure]
  rfl

/-- The extractor is asked once, and nothing happens before or after that. -/
theorem runWith_of_select (h : p.load directory environment = .ok manifest)
    (hselect : manifest.select request = .ok artifact) :
    p.runWith extractor directory environment request filter =
      p.conclude filter manifest artifact <$>
        extractor artifact.indexImage manifest.metadata.operatorName := by
  rw [runWith_of_load extractor h, resolveM_of_select extractor hselect, Functor.map_map]
  congr 1
  funext answer
  cases answer <;> rfl

end Effects

/-! ### The run itself and the record of its calls -/

section Runs

variable {p : Pipeline} {directory : String} {environment : Environment} {request : VersionRequest}
  {filter : Filter} {manifest : Manifest} {artifact : Artifact}

theorem run_of_load_error {cause : LoadError} (h : p.load directory environment = .error cause) :
    p.run directory environment request filter = .error (.load cause) :=
  runWith_of_load_error (m := Id) p.extractor h

theorem run_of_select_error {cause : ResolutionError}
    (h : p.load directory environment = .ok manifest)
    (hselect : manifest.select request = .error cause) :
    p.run directory environment request filter = .error (.resolution cause) :=
  runWith_of_select_error (m := Id) p.extractor h hselect

theorem run_of_select (h : p.load directory environment = .ok manifest)
    (hselect : manifest.select request = .ok artifact) :
    p.run directory environment request filter = p.conclude filter manifest artifact
      (p.extractor artifact.indexImage manifest.metadata.operatorName) :=
  runWith_of_select (m := Id) p.extractor h hselect

theorem calls_of_load_error {cause : LoadError} (h : p.load directory environment = .error cause) :
    p.calls directory environment request filter = [] := by
  rw [calls, runWith_of_load_error _ h]
  rfl

theorem calls_of_select_error {cause : ResolutionError}
    (h : p.load directory environment = .ok manifest)
    (hselect : manifest.select request = .error cause) :
    p.calls directory environment request filter = [] := by
  rw [calls, runWith_of_select_error _ h hselect]
  rfl

/-- The extractor is asked once, for the index image of the artifact and the operator of the
metadata. -/
theorem calls_of_select (h : p.load directory environment = .ok manifest)
    (hselect : manifest.select request = .ok artifact) :
    p.calls directory environment request filter =
      [(artifact.indexImage, manifest.metadata.operatorName)] := by
  rw [calls, runWith_of_select _ h hselect]
  rfl

/-- Writing the calls down does not change what a run comes to. -/
theorem run_recorded (p : Pipeline) (directory : String) (environment : Environment)
    (request : VersionRequest) (filter : Filter) :
    (p.runWith (recorded p.extractor) directory environment request filter).run [] =
      (p.run directory environment request filter,
        p.calls directory environment request filter) := by
  refine Prod.ext ?_ rfl
  cases hload : p.load directory environment with
  | error cause =>
    rw [run_of_load_error hload, runWith_of_load_error _ hload]
    rfl
  | ok manifest =>
    cases hselect : manifest.select request with
    | error cause =>
      rw [run_of_select_error hload hselect, runWith_of_select_error _ hload hselect]
      rfl
    | ok artifact =>
      rw [run_of_select hload hselect, runWith_of_select _ hload hselect]
      rfl

/-- What a run fails with: the first error of its loader, of the selection and of its
extractor. -/
inductive Aborts (load : String → Environment → Except LoadError Manifest) (extractor : Extractor)
    (directory : String) (environment : Environment) (request : VersionRequest) :
    ValidateError → Prop
  | load {cause : LoadError} : load directory environment = .error cause →
      Aborts load extractor directory environment request (.load cause)
  | resolution {manifest : Manifest} {cause : ResolutionError} :
      load directory environment = .ok manifest → manifest.select request = .error cause →
      Aborts load extractor directory environment request (.resolution cause)
  | extraction {manifest : Manifest} {artifact : Artifact} {cause : ExtractionError} :
      load directory environment = .ok manifest → manifest.select request = .ok artifact →
      extractor artifact.indexImage manifest.metadata.operatorName = .error cause →
      Aborts load extractor directory environment request (.extraction cause)

theorem run_of_aborts {e : ValidateError}
    (h : Aborts p.load p.extractor directory environment request e) :
    p.run directory environment request filter = .error e := by
  cases h with
  | load hload => exact run_of_load_error hload
  | resolution hload hselect => exact run_of_select_error hload hselect
  | extraction hload hselect hextract =>
    rw [run_of_select hload hselect, hextract]
    rfl

theorem run_of_extract {bundles : List Bundle} (h : p.load directory environment = .ok manifest)
    (hselect : manifest.select request = .ok artifact)
    (hextract : p.extractor artifact.indexImage manifest.metadata.operatorName = .ok bundles) :
    p.run directory environment request filter =
      let subject : Subject := ⟨manifest.environment, manifest.metadata, artifact, bundles⟩
      .ok ⟨subject, Run.report p.jobs filter p.registry subject⟩ := by
  rw [run_of_select h hselect, hextract]
  rfl

/-- The collaborators decide between an error and a report. -/
theorem aborts_or_extracts (p : Pipeline) (directory : String) (environment : Environment)
    (request : VersionRequest) :
    (∃ e, Aborts p.load p.extractor directory environment request e) ∨
      ∃ manifest artifact bundles, p.load directory environment = .ok manifest ∧
        manifest.select request = .ok artifact ∧
        p.extractor artifact.indexImage manifest.metadata.operatorName = .ok bundles := by
  cases hload : p.load directory environment with
  | error cause => exact .inl ⟨_, .load hload⟩
  | ok manifest =>
    cases hselect : manifest.select request with
    | error cause => exact .inl ⟨_, .resolution hload hselect⟩
    | ok artifact =>
      cases hextract : p.extractor artifact.indexImage manifest.metadata.operatorName with
      | error cause => exact .inl ⟨_, .extraction hload hselect hextract⟩
      | ok bundles => exact .inr ⟨manifest, artifact, bundles, rfl, hselect, hextract⟩

/-- A run fails exactly with the error of the first collaborator that fails. -/
theorem run_eq_error_iff {e : ValidateError} :
    p.run directory environment request filter = .error e ↔
      Aborts p.load p.extractor directory environment request e := by
  constructor
  · intro h
    rcases aborts_or_extracts p directory environment request with
      ⟨e', haborts⟩ | ⟨manifest, artifact, bundles, hload, hselect, hextract⟩
    · have heq : Except.error e' = Except.error e := (run_of_aborts haborts).symm.trans h
      rwa [← Except.error.inj heq]
    · rw [run_of_extract hload hselect hextract] at h
      cases h
  · exact run_of_aborts

theorem run_eq_ok_iff {v : Validation} :
    p.run directory environment request filter = .ok v ↔
      ∃ manifest artifact bundles, p.load directory environment = .ok manifest ∧
        manifest.select request = .ok artifact ∧
        p.extractor artifact.indexImage manifest.metadata.operatorName = .ok bundles ∧
        v.subject = ⟨manifest.environment, manifest.metadata, artifact, bundles⟩ ∧
        v.report = Run.report p.jobs filter p.registry v.subject := by
  constructor
  · intro h
    rcases aborts_or_extracts p directory environment request with
      ⟨e, haborts⟩ | ⟨manifest, artifact, bundles, hload, hselect, hextract⟩
    · rw [run_of_aborts haborts] at h
      cases h
    · rw [run_of_extract hload hselect hextract] at h
      cases h
      exact ⟨manifest, artifact, bundles, hload, hselect, hextract, rfl, rfl⟩
  · rintro ⟨manifest, artifact, bundles, hload, hselect, hextract, hsubject, hreport⟩
    obtain ⟨subject, report⟩ := v
    dsimp only at hsubject hreport
    rw [run_of_extract hload hselect hextract, hreport, hsubject]

theorem calls_eq_nil_iff :
    p.calls directory environment request filter = [] ↔
      (∃ cause, p.load directory environment = .error cause) ∨
        ∃ manifest cause, p.load directory environment = .ok manifest ∧
          manifest.select request = .error cause := by
  constructor
  · intro h
    cases hload : p.load directory environment with
    | error cause => exact .inl ⟨cause, rfl⟩
    | ok manifest =>
      cases hselect : manifest.select request with
      | error cause => exact .inr ⟨manifest, cause, rfl, hselect⟩
      | ok artifact =>
        rw [calls_of_select hload hselect] at h
        cases h
  · rintro (⟨cause, hload⟩ | ⟨manifest, cause, hload, hselect⟩)
    · exact calls_of_load_error hload
    · exact calls_of_select_error hload hselect

theorem calls_eq_singleton_iff {image operator : String} :
    p.calls directory environment request filter = [(image, operator)] ↔
      ∃ manifest artifact, p.load directory environment = .ok manifest ∧
        manifest.select request = .ok artifact ∧ image = artifact.indexImage ∧
        operator = manifest.metadata.operatorName := by
  constructor
  · intro h
    cases hload : p.load directory environment with
    | error cause =>
      rw [calls_of_load_error hload] at h
      cases h
    | ok manifest =>
      cases hselect : manifest.select request with
      | error cause =>
        rw [calls_of_select_error hload hselect] at h
        cases h
      | ok artifact =>
        rw [calls_of_select hload hselect] at h
        cases h
        exact ⟨manifest, artifact, rfl, hselect, rfl, rfl⟩
  · rintro ⟨manifest, artifact, hload, hselect, rfl, rfl⟩
    exact calls_of_select hload hselect

end Runs

/-- The loader of addon directories answers for the environment that it is asked for. -/
theorem loadsRequested_load (fs : FileSystem) : LoadsRequested (Manifest.load fs) := by
  intro directory environment manifest h
  rw [Manifest.load] at h
  obtain ⟨metadata, -, h⟩ := Fallible.bind_eq_ok_iff.1 h
  obtain ⟨sets, -, h⟩ := Fallible.bind_eq_ok_iff.1 h
  cases h
  rfl

/-- What a run comes to. It reports if its loader, the selection and its extractor all succeed,
on the subject that they make up, and fails with the first of their errors otherwise. The extractor
is asked once and for the bundles of the selected artifact, or not at all. The rules do not matter
for an error. -/
theorem run_collaborators (p : Pipeline) (directory : String) (environment : Environment)
    (request : VersionRequest) (filter : Filter) :
    let run := p.run directory environment request filter
    let asked := p.calls directory environment request filter
    (∀ v, run = .ok v ↔
      ∃ manifest artifact bundles, p.load directory environment = .ok manifest ∧
        manifest.select request = .ok artifact ∧
        p.extractor artifact.indexImage manifest.metadata.operatorName = .ok bundles ∧
        v.subject = ⟨manifest.environment, manifest.metadata, artifact, bundles⟩ ∧
        v.report = Run.report p.jobs filter p.registry v.subject) ∧
    (LoadsRequested p.load → ∀ v, run = .ok v → v.subject.environment = environment) ∧
    (∀ fs, LoadsRequested (Manifest.load fs)) ∧
    (∀ e, run = .error e ↔ Aborts p.load p.extractor directory environment request e) ∧
    (∀ registry jobs others e, run = .error e ↔
      Pipeline.run { p with registry, jobs } directory environment request others = .error e) ∧
    (p.runWith (recorded p.extractor) directory environment request filter).run [] =
      (run, asked) ∧
    (∀ image operator, asked = [(image, operator)] ↔
      ∃ manifest artifact, p.load directory environment = .ok manifest ∧
        manifest.select request = .ok artifact ∧ image = artifact.indexImage ∧
        operator = manifest.metadata.operatorName) ∧
    (asked = [] ↔ (∃ cause, p.load directory environment = .error cause) ∨
      ∃ manifest cause, p.load directory environment = .ok manifest ∧
        manifest.select request = .error cause) := by
  intro run asked
  refine ⟨fun v => run_eq_ok_iff, ?_, loadsRequested_load, fun e => run_eq_error_iff, ?_,
    run_recorded p directory environment request filter, fun image operator =>
      calls_eq_singleton_iff, calls_eq_nil_iff⟩
  · intro hrequested v hv
    obtain ⟨manifest, artifact, bundles, hload, -, -, hsubject, -⟩ := run_eq_ok_iff.1 hv
    rw [hsubject]
    exact hrequested directory environment manifest hload
  · intro registry jobs others e
    have hother : Pipeline.run { p with registry, jobs } directory environment request others =
        .error e ↔ Aborts p.load p.extractor directory environment request e := run_eq_error_iff
    rw [hother]
    exact run_eq_error_iff

def newest : ImageSet := ⟨"a.v1.10.0", "i10", [], none, none, none⟩

/-- A loader with two image sets for every environment, and an extractor with a bundle for every
operator. -/
def obliging : Pipeline where
  load _ environment :=
    .ok ⟨environment, .ofNames "a" "op", [⟨"a.v1.9.0", "i9", [], none, none, none⟩, newest]⟩
  extractor _ operator := .ok [⟨"b", operator, [], none, []⟩]
  registry := Dict.empty
  jobs := 1

/-- What the rules are run on in a run for the latest version. -/
def obliged (environment : Environment) : Subject :=
  ⟨environment, .ofNames "a" "op", .imageSet newest, [⟨"b", "op", [], none, []⟩]⟩

theorem run_obliging (registry : Registry) (environment : Environment) :
    Pipeline.run { obliging with registry } "/a" environment .latest .all =
      .ok ⟨obliged environment, Run.report 1 .all registry (obliged environment)⟩ := by
  exact run_eq_ok_iff.2 ⟨_, .imageSet newest, _, rfl, rfl, rfl, rfl, rfl⟩

theorem run_collaborators_obliging :
    LoadsRequested obliging.load ∧
      ∃ v, obliging.run "/a" .production .latest .all = .ok v ∧
        v.subject.environment = .production ∧
        obliging.calls "/a" .production .latest .all = [("i10", "op")] := by
  have hrequested : LoadsRequested obliging.load := by
    rintro directory environment manifest ⟨⟩
    rfl
  have hrun := run_obliging Dict.empty .production
  obtain ⟨-, henvironment, -, -, -, -, hasked, -⟩ :=
    run_collaborators obliging "/a" .production .latest .all
  have hcalls := (hasked "i10" "op").2 ⟨_, .imageSet newest, rfl, rfl, rfl, rfl⟩
  exact ⟨hrequested, _, hrun, henvironment hrequested _ hrun, hcalls⟩

end AddonLint.Pipeline
