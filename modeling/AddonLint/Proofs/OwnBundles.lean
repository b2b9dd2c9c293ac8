import AddonLint.Proofs.BuiltinRuns
import AddonLint.Proofs.CachedBundles
import AddonLint.Proofs.Deadlines
import AddonLint.Proofs.Stages

/-!
# Bundles of a cache belong to the operator

A cache hands out bundles of the operator only, and never none. So a subject whose bundles come
from a cache always satisfies the rule on operator names, with or without a deadline, and no
report on such a subject mentions that rule.
-/
namespace AddonLint

namespace Cache

/-- All that an extraction gives belongs to the operator, and there is something. -/
theorem own_of_extract {fs : FileSystem} {cache image operator : String} {bundles : List Bundle}
    (h : extract fs cache image operator = .ok bundles) :
    bundles ≠ [] ∧ ∀ b ∈ bundles, b.package = operator := by
  cases hdirectory : fs.isDirectory (imageDirectory cache image) with
  | false =>
    rw [extract_of_not_isDirectory hdirectory] at h
    cases h
  | true =>
    rw [extract_of_isDirectory hdirectory] at h
    obtain ⟨found, -, h⟩ := Fallible.bind_eq_ok_iff.1 h
    cases hown : ofOperator operator found with
    | nil =>
      rw [hown] at h
      cases h
    | cons b rest =>
      rw [hown] at h
      cases h
      refine ⟨List.cons_ne_nil b rest, fun b' hb' => ?_⟩
      rw [← hown] at hb'
      exact (mem_ofOperator.1 hb').2

/-- An extractor that takes its bundles from a cache, at once or within a deadline. -/
def Feeds (fs : FileSystem) (cache : String) (extractor : Extractor) : Prop :=
  extractor = extract fs cache ∨ ∃ deadline, Deadline.Bounds (extract fs cache) deadline extractor

/-- A deadline leaves the bundles that come in time as the cache gives them. -/
theorem feeds_inTime (fs : FileSystem) (cache : String) (deadline : Duration) :
    Feeds fs cache (Deadline.inTime (extract fs cache) deadline) :=
  .inr ⟨deadline, Deadline.bounds_inTime _ _⟩

theorem Feeds.extract_eq_ok {fs : FileSystem} {cache : String} {extractor : Extractor}
    (h : Feeds fs cache extractor) {image operator : String} {bundles : List Bundle}
    (hbundles : extractor image operator = .ok bundles) :
    extract fs cache image operator = .ok bundles := by
  rcases h with rfl | ⟨deadline, hbounds⟩
  · exact hbundles
  · exact hbounds.bundles hbundles

end Cache

namespace Rules

/-- The only rule that a registry may have under the code of the rule on operator names is that
rule. -/
def OwnsOperatorName (registry : Registry) : Prop :=
  ∀ rule ∈ registry.rules, rule.code = "AM0003" → rule = operatorName

theorem ownsOperatorName_registry {registry : Registry} (h : Rules.registry = .ok registry) :
    OwnsOperatorName registry := by
  obtain ⟨registry', hregistry', hrules⟩ := registry_eq_ok
  obtain rfl := Except.ok.inj (h.symm.trans hregistry')
  have hbuiltin : ∀ rule ∈ builtin, rule.code = "AM0003" → rule = operatorName := by
    simp [builtin, defaultChannel, labelFormat, operatorName, icon, testHarness, targetNamespace,
      indexImage, serviceVersion]
  unfold OwnsOperatorName
  rwa [hrules]

theorem passes_operatorName {subject : Subject} (h : BundlesFit subject) :
    ∃ v, operatorName.runner subject = .verdict v ∧ v.passed = true := by
  have hanswers : Answers subject operatorName := answers_builtin (by simp [builtin]) subject
  exact hanswers.exists_pass_iff.2 h

/-- Nothing that rules report is about the rule on operator names. -/
theorem silent_of_bundlesFit {registry : Registry} (hregistry : OwnsOperatorName registry)
    {subject : Subject} (h : BundlesFit subject) (jobs : Nat) (filter : Filter) :
    (Run.report jobs filter registry subject).about "AM0003" = ([], []) := by
  obtain ⟨v, hv, hpassed⟩ := passes_operatorName h
  have howned : ∀ rule ∈ filter.select registry, rule.code = "AM0003" → rule = operatorName :=
    fun rule hrule => hregistry rule (List.mem_filter.1 hrule).1
  rw [Run.report_eq_ofEntries, Report.about, Prod.mk.injEq, List.filter_eq_nil_iff,
    List.filter_eq_nil_iff]
  constructor
  · intro f hf hcode
    obtain ⟨rule, hrule, v', hv', hfailed, rfl⟩ := Run.mem_failures_iff.1 hf
    obtain rfl := howned rule hrule (of_decide_eq_true hcode)
    cases hv.symm.trans hv'
    cases hpassed.symm.trans hfailed
  · intro e he hcode
    obtain ⟨rule, hrule, ⟨error, herror, rfl⟩ | ⟨payload, hcrashed, rfl⟩⟩ :=
      Run.mem_hardErrors_iff.1 he
    · obtain rfl := howned rule hrule (of_decide_eq_true hcode)
      cases hv.symm.trans herror
    · obtain rfl := howned rule hrule (of_decide_eq_true hcode)
      cases hv.symm.trans hcrashed

end Rules

/-! ### Subjects of a cache -/

/-- The bundles of a validation belong to the operator that the metadata name, there is one at
least, and the report says nothing about the rule that asks for this. -/
structure Validation.OwnsBundles (v : Validation) : Prop where
  nonempty : v.subject.bundles ≠ []
  package : ∀ b ∈ v.subject.bundles, b.package = v.subject.addon.operatorName
  silent : v.report.about "AM0003" = ([], [])

/-- Whatever request and filter there are, bundles from a cache satisfy the rule on operator
names. -/
theorem Pipeline.ownsBundles_of_feeds {fs : FileSystem} {cache : String} {p : Pipeline}
    (hextractor : Cache.Feeds fs cache p.extractor) (hregistry : Rules.OwnsOperatorName p.registry)
    {directory : String} {environment : Environment} {request : VersionRequest} {filter : Filter}
    {v : Validation} (h : p.run directory environment request filter = .ok v) :
    v.OwnsBundles := by
  obtain ⟨manifest, artifact, bundles, -, -, hbundles, hsubject, hreport⟩ :=
    Pipeline.run_eq_ok_iff.1 h
  obtain ⟨hnonempty, hpackage⟩ := Cache.own_of_extract (hextractor.extract_eq_ok hbundles)
  have hfit : Rules.BundlesFit v.subject := by
    rw [hsubject]
    exact ⟨hnonempty, hpackage⟩
  refine ⟨hfit.1, hfit.2, ?_⟩
  rw [hreport]
  exact Rules.silent_of_bundlesFit hregistry hfit p.jobs filter

theorem Prepared.registry_of_ofRequest {fs : FileSystem} {r : ValidateRequest} {prepared : Prepared}
    (h : Prepared.ofRequest fs r = .ok prepared) : Rules.registry = .ok prepared.registry := by
  obtain ⟨directory, -, h⟩ := Fallible.bind_eq_ok_iff.1 h
  obtain ⟨environment, -, h⟩ := Fallible.bind_eq_ok_iff.1 h
  obtain ⟨version, -, h⟩ := Fallible.bind_eq_ok_iff.1 h
  obtain ⟨registry, hregistry, h⟩ := Fallible.bind_eq_ok_iff.1 h
  obtain ⟨filter, -, h⟩ := Fallible.bind_eq_ok_iff.1 h
  cases h
  exact hregistry

/-- The program takes its bundles from a cache within a deadline. -/
theorem Validate.feeds_pipeline (i : Input) (p : Prepared) (s : Settings) :
    Cache.Feeds i.files (s.cacheFor p.directory) (i.pipeline p s).extractor := by
  dsimp only [Input.pipeline]
  exact Cache.feeds_inTime i.files (s.cacheFor p.directory) s.deadline

theorem Validate.ownsBundles_of_validation (i : Input) {v : Validation}
    (h : validation i.files i.config i.lookup i.request = .ok v) : v.OwnsBundles := by
  obtain ⟨p, hp, hrest⟩ := Fallible.bind_eq_ok_iff.1 h
  obtain ⟨s, hs, -⟩ := Fallible.bind_eq_ok_iff.1 hrest
  have hp := Fallible.mapError_eq_ok_iff.1 hp
  rw [validation_eq hp (Fallible.mapError_eq_ok_iff.1 hs), Fallible.mapError_eq_ok_iff] at h
  have hregistry : Rules.OwnsOperatorName (i.pipeline p s).registry :=
    Rules.ownsOperatorName_registry (Prepared.registry_of_ofRequest hp)
  exact Pipeline.ownsBundles_of_feeds (feeds_pipeline i p s) hregistry h

namespace Pipeline

/-- A run that takes its bundles from a cache, at once or within a deadline, gets to the rules with
bundles of the operator only, and with one at least. So the rule on operator names is never
reported, neither by such a run nor by the validation of an addon directory. -/
theorem operatorName_silent (fs : FileSystem) :
    (∀ cache (p : Pipeline), Cache.Feeds fs cache p.extractor →
      Rules.OwnsOperatorName p.registry →
      ∀ directory environment request filter v,
        p.run directory environment request filter = .ok v →
        v.OwnsBundles ∧ ∃ manifest, p.load directory environment = .ok manifest ∧
          v.subject.addon = manifest.metadata) ∧
    (∀ registry, Rules.registry = .ok registry → Rules.OwnsOperatorName registry) ∧
    ∀ config lookup r v, Validate.validation fs config lookup r = .ok v → v.OwnsBundles := by
  refine ⟨?_, fun registry h => Rules.ownsOperatorName_registry h, fun config lookup r v h =>
    Validate.ownsBundles_of_validation ⟨fs, config, lookup, r⟩ h⟩
  intro cache p hextractor hregistry directory environment request filter v h
  obtain ⟨manifest, artifact, bundles, hload, -, -, hsubject, -⟩ := run_eq_ok_iff.1 h
  exact ⟨ownsBundles_of_feeds hextractor hregistry h, manifest, hload, by rw [hsubject]⟩

/-- The metadata of an addon that comes as the index image `i` and installs the operator `own`. -/
def cachedAddon : AddonMetadata := { AddonMetadata.ofNames "a" "own" with indexImage := some "i" }

/-- A pipeline that takes the bundles of that addon from a cache within two minutes. -/
def cached (fs : FileSystem) (registry : Registry) : Pipeline where
  load _ environment := .ok ⟨environment, cachedAddon, []⟩
  extractor := Deadline.inTime (Cache.extract fs "/") (.ofSeconds 120)
  registry := registry
  jobs := 2

theorem feeds_cached (fs : FileSystem) (registry : Registry) :
    Cache.Feeds fs "/" (cached fs registry).extractor := by
  dsimp only [cached]
  exact Cache.feeds_inTime fs "/" (.ofSeconds 120)

theorem run_cached {fs : FileSystem} {bundles : List Bundle}
    (h : Cache.extract fs "/" "i" "own" = .ok bundles) (registry : Registry) :
    ∃ v, (cached fs registry).run "/a" .stage .declared .all = .ok v := by
  have hselect : Manifest.select ⟨.stage, cachedAddon, []⟩ .declared =
      .ok (.staticIndexImage "i") := rfl
  have hbundles : (cached fs registry).extractor "i" "own" = .ok bundles := by
    dsimp only [cached]
    rw [Validate.inTime_eq, h]
  exact ⟨_, run_of_extract rfl hselect hbundles⟩

theorem operatorName_silent_sharedImage :
    ∃ fs registry v, Rules.registry = .ok registry ∧
      Cache.Feeds fs "/" (cached fs registry).extractor ∧
      (cached fs registry).run "/a" .stage .declared .all = .ok v ∧ v.OwnsBundles := by
  obtain ⟨documents, hdocuments⟩ : ∃ documents, Json.ofYamlStream "kind: B\n" = .ok documents :=
    Fallible.exists_ok_of_isSome (by decide +kernel)
  have hdistinct := Cache.distinct_sharedImage "kind: B\n"
  have hread : Cache.Readable (Cache.sharedImage "kind: B\n") (Cache.imageDirectory "/" "i") :=
    Cache.readable_sharedImage _ hdocuments
  obtain ⟨b, ⟨hholds, -, hpackage⟩, -⟩ :=
    (Cache.belongs_iff hdistinct hread).1 (Cache.belongs_sharedImage "kind: B\n").1
  obtain ⟨bundles, hbundles, -⟩ := Cache.exists_extract_of_holds hdistinct hread hholds
  rw [hpackage] at hbundles
  obtain ⟨registry, hregistry, -⟩ := Rules.registry_eq_ok
  obtain ⟨hruns, hbuiltin, -⟩ := operatorName_silent (Cache.sharedImage "kind: B\n")
  have hfeeds := feeds_cached (Cache.sharedImage "kind: B\n") registry
  obtain ⟨v, hrun⟩ := run_cached hbundles registry
  exact ⟨_, registry, v, hregistry, hfeeds, hrun,
    (hruns "/" _ hfeeds (hbuiltin registry hregistry) _ _ _ _ v hrun).1⟩

end Pipeline

end AddonLint
