import AddonLint.Proofs.Declarations
import AddonLint.Proofs.Pipelines
import AddonLint.Proofs.PlainVersions
import AddonLint.Report.Printer

/-!
# The version in a report

A report reads the version off the name of the image set. That is the version for which the image
set was selected, because a name encodes one version at most and the image set is the only one of
the manifest that encodes it.
-/
namespace AddonLint

namespace Resolution

/-- A request comes down to a search for a target, by itself or through the metadata. -/
inductive Asks (m : Manifest) : VersionRequest → Target → Prop
  | explicit (target : Target) : Asks m target.request target
  | declared {text : String} {target : Target} :
      Declares m.metadata.addonImageSetVersion text →
      VersionRequest.parse text = .ok target.request → Asks m .declared target

/-- An image set is the one that a request is about: the only one at the version it means. -/
structure Chosen (m : Manifest) (request : VersionRequest) (v : SemVer) (set : ImageSet) :
    Prop where
  target : ∃ target, Asks m request target ∧ target.Means m.imageSets v
  only : carriers m.imageSets v = [set]

/-- A request that names its target does not look at the metadata. -/
theorem Asks.eq_of_explicit {m : Manifest} {target target' : Target}
    (h : Asks m target.request target') : target' = target := by
  generalize hrequest : target.request = request at h
  cases h with
  | explicit =>
    cases target <;> cases target' <;> cases hrequest
    · rfl
    · rfl
  | declared => cases target <;> cases hrequest

theorem Asks.parse_of_declares {m : Manifest} {target : Target} {text : String}
    (h : Asks m .declared target) (hdeclares : Declares m.metadata.addonImageSetVersion text) :
    VersionRequest.parse text = .ok target.request := by
  generalize hrequest : VersionRequest.declared = request at h
  cases h with
  | explicit => cases target <;> cases hrequest
  | declared hdeclares' hparse =>
    rw [hdeclares.unique hdeclares']
    exact hparse

theorem select_of_asks {m : Manifest} {request : VersionRequest} {target : Target}
    (h : Asks m request target) : m.select request = m.select target.request := by
  cases h with
  | explicit => rfl
  | declared hdeclares hparse => exact select_of_parse hdeclares hparse

/-- What was selected for a target is the image set that is meant, never a fixed image. -/
theorem chosen_of_select {m : Manifest} {request : VersionRequest} {target : Target}
    {artifact : Artifact} (hasks : Asks m request target)
    (h : m.select request = .ok artifact) :
    ∃ v set, Chosen m request v set ∧ artifact = .imageSet set := by
  rw [select_of_asks hasks, select_eq_iff] at h
  cases h with
  | found hnamed hmeans honly => exact ⟨_, _, ⟨⟨target, hasks, hmeans⟩, honly⟩, rfl⟩

/-- Only metadata without a version make a request come to a fixed index image. -/
theorem static_or_chosen {m : Manifest} {request : VersionRequest} {artifact : Artifact}
    (h : m.select request = .ok artifact) :
    (∃ image, artifact = .staticIndexImage image ∧ request = .declared ∧
      Undeclared m.metadata.addonImageSetVersion) ∨
    ∃ v set, Chosen m request v set ∧ artifact = .imageSet set := by
  by_cases hrequest : request = .declared
  · subst hrequest
    rcases declares_or_undeclared m.metadata.addonImageSetVersion with ⟨text, hdeclares⟩ | hnone
    · cases hparse : VersionRequest.parse text with
      | error e =>
        rw [select_of_parse_error hdeclares hparse] at h
        cases h
      | ok read =>
        obtain ⟨target, rfl⟩ := exists_target (ne_declared_of_parse hdeclares.ne_empty hparse)
        exact .inr (chosen_of_select (.declared hdeclares hparse) h)
    · rw [select_of_undeclared hnone] at h
      split at h
      · cases h
        exact .inl ⟨_, rfl, rfl, hnone⟩
      · cases h
  · obtain ⟨target, rfl⟩ := exists_target hrequest
    exact .inr (chosen_of_select (.explicit target) h)

section Chosen

variable {m : Manifest} {request : VersionRequest} {v : SemVer} {set : ImageSet}

theorem Chosen.version (h : Chosen m request v set) : set.version? = some v := by
  have hmem : set ∈ carriers m.imageSets v := by
    rw [h.only]
    exact List.mem_singleton_self set
  exact of_decide_eq_true (List.mem_filter.1 hmem).2

theorem Chosen.means (target : Target) (h : Chosen m target.request v set) :
    target.Means m.imageSets v := by
  obtain ⟨target', hasks, hmeans⟩ := h.target
  rwa [hasks.eq_of_explicit] at hmeans

/-- The declared text is that of the version, unless it is `latest`. -/
theorem Chosen.declared {text : String} (h : Chosen m .declared v set)
    (hdeclares : Declares m.metadata.addonImageSetVersion text) :
    (text = "latest" → SemVer.IsGreatest (encoded m.imageSets) v) ∧
    (text ≠ "latest" → text = v.text) := by
  obtain ⟨target, hasks, hmeans⟩ := h.target
  have hparse := hasks.parse_of_declares hdeclares
  cases target with
  | latest =>
    have htext := VersionRequest.eq_text_of_parse hparse nofun
    exact ⟨fun _ => hmeans, fun hne => absurd htext hne⟩
  | exact u =>
    obtain rfl : v = u := hmeans
    have htext := VersionRequest.eq_text_of_parse hparse nofun
    refine ⟨fun hlatest => ?_, fun _ => htext⟩
    rw [hlatest] at hparse
    cases hparse

/-- The version of a chosen image set can be read off its name. -/
theorem Chosen.name (h : Chosen m request v set) :
    ∃ addon, addon ≠ "" ∧ set.name = addon ++ ".v" ++ v.text :=
  (ImageSetName.version?_eq_some_iff.1 h.version).2

end Chosen

end Resolution

/-! ### What is reported -/

theorem Report.version_of_static (r : Report) {subject : Subject} {image : String}
    (h : subject.artifact = .staticIndexImage image) (now : Instant) :
    (r.toJson subject now).field? "version" = some .null := by
  have hfield : (r.toJson subject now).field? "version" =
      some (.ofText? (subject.artifact.version?.map SemVer.text)) := rfl
  rw [hfield, h]
  rfl

theorem Report.version_of_imageSet (r : Report) {subject : Subject} {set : ImageSet} {v : SemVer}
    (h : subject.artifact = .imageSet set) (hv : set.version? = some v) (now : Instant) :
    (r.toJson subject now).field? "version" = some (.str v.text) := by
  have hfield : (r.toJson subject now).field? "version" =
      some (.ofText? (subject.artifact.version?.map SemVer.text)) := rfl
  have hread : (Artifact.imageSet set).version? = some v := hv
  rw [hfield, h, hread]
  rfl

open Resolution in
/-- What a report says about the version: nothing for a fixed index image, and for an image set the
version that was asked for or declared, which no other image set of the manifest has. -/
theorem Validation.reported_version {p : Pipeline} {directory : String} {environment : Environment}
    {request : VersionRequest} {filter : Filter} {v : Validation} {manifest : Manifest}
    (h : p.run directory environment request filter = .ok v)
    (hload : p.load directory environment = .ok manifest) (now : Instant) :
    let document := v.report.toJson v.subject now
    let label := v.subject.artifact.label
    let declares := Declares manifest.metadata.addonImageSetVersion
    (document.field? "version" = some .null ↔
      ∃ image, v.subject.artifact = .staticIndexImage image) ∧
    document.field? "artifact" = some (.str label) ∧
    (∀ set, v.subject.artifact = .imageSet set → ∃ version : SemVer,
      version.isPlain = true ∧
      document.field? "version" = some (.str version.text) ∧
      (∃ addon, addon ≠ "" ∧ label = addon ++ ".v" ++ version.text) ∧
      carriers manifest.imageSets version = [set]) ∧
    (∀ version, request = .exact version →
      document.field? "version" = some (.str version.text)) ∧
    (∀ text, request = .declared → declares text → text ≠ "latest" →
      document.field? "version" = some (.str text)) ∧
    (request = .latest ∨ request = .declared ∧ declares "latest" → ∃ version : SemVer,
      document.field? "version" = some (.str version.text) ∧
      version ∈ encoded manifest.imageSets ∧
      ∀ other ∈ encoded manifest.imageSets, other.numbers ≤ version.numbers) := by
  intro document label declares
  obtain ⟨manifest', artifact, bundles, hload', hselect, -, hsubject, -⟩ :=
    Pipeline.run_eq_ok_iff.1 h
  obtain rfl : manifest' = manifest := Except.ok.inj (hload'.symm.trans hload)
  have hartifact : v.subject.artifact = artifact := by rw [hsubject]
  rcases static_or_chosen hselect with ⟨image, rfl, rfl, hnone⟩ | ⟨version, set, hchosen, rfl⟩
  · have hnull : document.field? "version" = some .null :=
      v.report.version_of_static hartifact now
    rw [hartifact]
    refine ⟨iff_of_true hnull ⟨image, rfl⟩, rfl, nofun, nofun, ?_, ?_⟩
    · intro text _ hdeclares
      exact absurd hdeclares (hnone.not_declares text)
    · rintro (hrequest | ⟨-, hdeclares⟩)
      · cases hrequest
      · exact absurd hdeclares (hnone.not_declares "latest")
  · have hversion : document.field? "version" = some (.str version.text) :=
      v.report.version_of_imageSet hartifact hchosen.version now
    have hplain : version.isPlain = true := isPlain_of_carriers hchosen.only
    have hlabel : label = set.name := congrArg Artifact.label hartifact
    rw [hversion, hlabel, hartifact]
    refine ⟨iff_of_false nofun nofun, ?_, ?_, ?_, ?_, ?_⟩
    · exact congrArg (fun name => some (Json.str name)) hlabel
    · rintro set' ⟨⟩
      exact ⟨version, hplain, rfl, hchosen.name, hchosen.only⟩
    · rintro asked rfl
      have hexact : version = asked := hchosen.means (.exact asked)
      rw [hexact]
    · rintro text rfl hdeclares hne
      rw [(hchosen.declared hdeclares).2 hne]
    · rintro (rfl | ⟨rfl, hdeclares⟩)
      · exact ⟨version, rfl, hchosen.means .latest⟩
      · exact ⟨version, rfl, (hchosen.declared hdeclares).1 rfl⟩

theorem Validation.reported_version_obliging :
    ∃ v manifest, Pipeline.obliging.run "/a" .stage .latest .all = .ok v ∧
      Pipeline.obliging.load "/a" .stage = .ok manifest ∧
      (v.report.toJson v.subject ⟨0, 0⟩).field? "version" = some (.str "1.10.0") ∧
      ∃ version : SemVer, version.text = "1.10.0" ∧
        ∀ other ∈ Resolution.encoded manifest.imageSets, other.numbers ≤ version.numbers := by
  obtain ⟨manifest, hload⟩ : ∃ manifest,
      Pipeline.obliging.load "/a" .stage = .ok manifest := ⟨_, rfl⟩
  have hrun := Pipeline.run_obliging Dict.empty .stage
  obtain ⟨-, -, -, -, -, hlatest⟩ := Validation.reported_version hrun hload ⟨0, 0⟩
  obtain ⟨version, hfield, -, hmax⟩ := hlatest (.inl rfl)
  have hread : ∀ report : Report,
      (report.toJson (Pipeline.obliged .stage) ⟨0, 0⟩).field? "version" =
        some (.str "1.10.0") := fun _ => rfl
  have htext : version.text = "1.10.0" := by
    have hsame := hfield.symm.trans (hread _)
    exact Json.str.inj (Option.some.inj hsame)
  exact ⟨_, manifest, hrun, hload, hread _, version, htext, hmax⟩

end AddonLint
