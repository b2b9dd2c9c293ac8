import AddonLint.Proofs.Base64
import AddonLint.Proofs.Messages
import AddonLint.Proofs.Pictures
import AddonLint.Proofs.ReferencePatterns
import AddonLint.Proofs.Registrations
import AddonLint.Proofs.Runs
import AddonLint.Proofs.VersionTexts

/-!
# What the built-in rules ask for

Each built-in rule stands for a condition on the subject, stated here without the rule. A rule
passes when its condition holds, and otherwise it says why, in one failure. Only the rule on
service versions may instead give up, on a bundle that it cannot judge. So a run succeeds
when the conditions of all selected rules hold.
-/
namespace AddonLint.Rules

/-! ### The conditions -/

/-- The default channel is the name of a channel. -/
def ChannelDeclared (addon : AddonMetadata) : Prop :=
  addon.defaultChannel ≠ "" ∧ ∃ c ∈ addon.channels, c.name = addon.defaultChannel

/-- The label is made from the identifier. -/
def LabelFits (addon : AddonMetadata) : Prop :=
  addon.label = "api.openshift.com/addon-" ++ addon.id

/-- There are bundles, and all of them belong to the operator. -/
def BundlesFit (subject : Subject) : Prop :=
  subject.bundles ≠ [] ∧ ∀ b ∈ subject.bundles, b.package = subject.addon.operatorName

/-- Without its line breaks, the icon is the base64 text of an image with a picture of at most
16 MiB. -/
def IconIsPicture (addon : AddonMetadata) : Prop :=
  ∃ bytes header, (addon.icon.toList.filter fun c => c ≠ '\n' && c ≠ '\r') = Base64.encode bytes ∧
    Png.Decodes header bytes ∧ header.frameBytes ≤ 16 * 1024 * 1024

/-- The test harness has the form of an image on quay.io. -/
def HarnessFits (addon : AddonMetadata) : Prop :=
  addon.testHarness.toList ∈ ImageReference.quayPattern

/-- The target namespace is one of the namespaces. -/
def NamespaceDeclared (addon : AddonMetadata) : Prop :=
  addon.targetNamespace ≠ "" ∧ addon.targetNamespace ∈ addon.namespaces

/-- The index image lies in the addon organisation, and an image set lists related images. -/
def ArtifactFits (artifact : Artifact) : Prop :=
  (∃ c tail, (('a' ≤ c ∧ c ≤ 'z') ∨ c = '-') ∧
    artifact.indexImage.toList = "quay.io/osd-addons/".toList ++ c :: tail) ∧
  ∀ set, artifact = .imageSet set → set.relatedImages ≠ []

/-- A manifest that says it is a ClusterServiceVersion. -/
def IsServiceVersion (manifest : Json) : Prop :=
  manifest.field? "kind" = some (.str "ClusterServiceVersion")

/-- The `spec` of a manifest is a mapping whose version is a semantic version. -/
def HasVersion (manifest : Json) : Prop :=
  ∃ (spec : List (String × Json)) (v : SemVer), manifest.field? "spec" = some (.obj spec) ∧
    (Json.obj spec).field? "version" = some (.str v.text) ∧ v.IsWellFormed

/-- A bundle has exactly one ClusterServiceVersion, and this one has a version. -/
def VersionFits (b : Bundle) : Prop :=
  ∃ before manifest after, b.manifests = before ++ manifest :: after ∧
    IsServiceVersion manifest ∧ (∀ other ∈ before ++ after, ¬IsServiceVersion other) ∧
      HasVersion manifest

/-- What the built-in rule of a code asks for. -/
def Holds (subject : Subject) (code : String) : Prop :=
  match code with
  | "AM0001" => ChannelDeclared subject.addon
  | "AM0002" => LabelFits subject.addon
  | "AM0003" => BundlesFit subject
  | "AM0004" => IconIsPicture subject.addon
  | "AM0005" => HarnessFits subject.addon
  | "AM0006" => NamespaceDeclared subject.addon
  | "AM0007" => ArtifactFits subject.artifact
  | "AM0008" => ∀ b ∈ subject.bundles, VersionFits b
  | _ => True

/-! ### Verdicts that decide a condition -/

/-- A pass if the condition holds, and otherwise a failure that says something. -/
inductive Decides (P : Prop) : Verdict → Prop
  | pass (h : P) : Decides P .pass
  | fail {message : String} (h : ¬P) (hmessage : message ≠ "") : Decides P (.fail message)

/-- A check decides its condition if a failure has a message. -/
theorem decides_check {P : Prop} {passed : Bool} {message : String} (h : passed = true ↔ P)
    (hmessage : passed = false → message ≠ "") : Decides P (.check passed message) := by
  cases passed with
  | true => exact .pass (h.mp rfl)
  | false => exact .fail (fun hP => Bool.false_ne_true (h.mpr hP)) (hmessage rfl)

theorem Decides.eq_pass_iff {P : Prop} {v : Verdict} (h : Decides P v) : v = .pass ↔ P := by
  cases h with
  | pass h => exact iff_of_true rfl h
  | fail h _ => exact iff_of_false (fun heq => by cases congrArg Verdict.passed heq) h

section Metadata

variable (addon : AddonMetadata)

theorem decides_notFound {P : Prop} {field : String} (h : ¬P) :
    Decides P (notFound field addon) :=
  .fail h (by simp)

theorem decides_judgeDefaultChannel :
    Decides (ChannelDeclared addon) (judgeDefaultChannel addon) := by
  unfold judgeDefaultChannel
  split
  next hempty => exact decides_notFound addon fun h => h.1 hempty
  next hne =>
    refine decides_check ?_ fun _ => by simp
    simp [ChannelDeclared, hne]

theorem decides_judgeLabel : Decides (LabelFits addon) (judgeLabel addon) :=
  decides_check decide_eq_true_iff fun _ => by simp

/-- The icon is judged by its characters other than line breaks. -/
theorem decides_judgeIcon : Decides (IconIsPicture addon) (judgeIcon addon) := by
  unfold judgeIcon
  split
  next hempty =>
    refine decides_notFound addon ?_
    rintro ⟨bytes, header, htext, ⟨chunks, picture, rfl, -⟩, -⟩
    rw [hempty] at htext
    cases htext
  next hne =>
    split
    next hdecode =>
      refine .fail ?_ (by simp)
      rintro ⟨bytes, header, htext, -⟩
      rw [withoutBreaks, htext, Base64.decode_encode] at hdecode
      cases hdecode
    next bytes hdecode =>
      refine decides_check ?_ fun _ => by simp
      rw [Png.isImage_iff]
      have htext := Base64.decode_eq_some_iff.mp hdecode
      constructor
      · exact fun ⟨header, hdecodes, hsize⟩ => ⟨bytes, header, htext, hdecodes, hsize⟩
      · rintro ⟨_, header, hother, hdecodes, hsize⟩
        obtain rfl := Base64.encode_injective (htext.symm.trans hother)
        exact ⟨header, hdecodes, hsize⟩

theorem decides_judgeTestHarness : Decides (HarnessFits addon) (judgeTestHarness addon) := by
  unfold judgeTestHarness
  split
  next hempty =>
    refine decides_notFound addon ?_
    rw [HarnessFits, hempty, ← ImageReference.isQuayImage_iff]
    decide
  next => exact decides_check ImageReference.isQuayImage_iff fun _ => by simp

theorem decides_judgeTargetNamespace :
    Decides (NamespaceDeclared addon) (judgeTargetNamespace addon) := by
  unfold judgeTargetNamespace
  split
  next hempty => exact decides_notFound addon fun h => h.1 hempty
  next hne =>
    refine decides_check ?_ fun _ => by simp
    simp [NamespaceDeclared, hne]

end Metadata

theorem decides_judgeOperatorName (subject : Subject) :
    Decides (BundlesFit subject) (judgeOperatorName subject) := by
  unfold judgeOperatorName
  dsimp only
  split
  next hempty => exact .fail (fun h => h.1 (List.isEmpty_iff.mp hempty)) (by simp)
  next hne =>
    refine decides_check ?_ fun _ => by simp
    have hbundles : subject.bundles ≠ [] := fun h => hne (List.isEmpty_iff.mpr h)
    simp [BundlesFit, hbundles]

/-- Problems that say something are joined to a text that says something. -/
theorem intercalate_ne_empty {problems : List String} (hne : problems ≠ [])
    (h : ∀ p ∈ problems, p ≠ "") : String.intercalate "; " problems ≠ "" := by
  obtain ⟨first, rest, rfl⟩ := List.exists_cons_of_ne_nil hne
  have hfirst := h first List.mem_cons_self
  cases rest with
  | nil => rwa [String.intercalate_singleton]
  | cons second rest => simp [String.intercalate_cons_cons, hfirst]

theorem decides_problems {P : Prop} {problems : List String} (h : problems = [] ↔ P)
    (hproblems : ∀ p ∈ problems, p ≠ "") :
    Decides P (.check problems.isEmpty (String.intercalate "; " problems)) :=
  decides_check (List.isEmpty_iff.trans h) fun hne =>
    intercalate_ne_empty (List.isEmpty_eq_false_iff.mp hne) hproblems

theorem indexImageProblem?_eq_none_iff {artifact : Artifact} :
    indexImageProblem? artifact = none ↔
      ImageReference.isIndexImage artifact.indexImage = true := by
  simp [indexImageProblem?]

theorem relatedImagesProblem?_eq_none_iff {artifact : Artifact} :
    relatedImagesProblem? artifact = none ↔
      ∀ set, artifact = .imageSet set → set.relatedImages ≠ [] := by
  cases artifact with
  | imageSet set => simp [relatedImagesProblem?]
  | staticIndexImage image => exact iff_of_true rfl nofun

theorem indexImageProblem_ne_empty {artifact : Artifact} {problem : String}
    (h : indexImageProblem? artifact = some problem) : problem ≠ "" := by
  unfold indexImageProblem? at h
  split at h
  · cases h
  · cases h
    simp

theorem relatedImagesProblem_ne_empty {artifact : Artifact} {problem : String}
    (h : relatedImagesProblem? artifact = some problem) : problem ≠ "" := by
  unfold relatedImagesProblem? at h
  split at h
  · split at h
    · cases h
      simp
    · cases h
  · cases h

theorem decides_judgeIndexImage (artifact : Artifact) :
    Decides (ArtifactFits artifact) (judgeIndexImage artifact) := by
  refine decides_problems ?_ fun problem hproblem => ?_
  · rw [List.append_eq_nil_iff, Option.toList_eq_nil_iff, Option.toList_eq_nil_iff,
      indexImageProblem?_eq_none_iff, relatedImagesProblem?_eq_none_iff,
      ImageReference.isIndexImage_iff, ArtifactFits]
  · rcases List.mem_append.mp hproblem with h | h
    · exact indexImageProblem_ne_empty (Option.mem_toList.mp h)
    · exact relatedImagesProblem_ne_empty (Option.mem_toList.mp h)

/-! ### Service versions -/

theorem isServiceVersion_iff {manifest : Json} :
    Bundle.isServiceVersion manifest = true ↔ IsServiceVersion manifest := by
  simp only [Bundle.isServiceVersion, Bundle.serviceVersionKind, IsServiceVersion,
    decide_eq_true_eq, Option.bind_eq_some_iff]
  constructor
  · rintro ⟨value, hkind, htext⟩
    cases value <;> simp_all [Json.text?]
  · exact fun h => ⟨_, h, rfl⟩

theorem versionProblem?_eq_none_iff {bundle : String} {spec : List (String × Json)} :
    versionProblem? bundle spec = none ↔
      ∃ v : SemVer, (Json.obj spec).field? "version" = some (.str v.text) ∧ v.IsWellFormed := by
  rw [Json.field?, versionProblem?]
  split
  next raw hraw =>
    constructor
    · intro h
      split at h
      next v hparse =>
        obtain ⟨hv, rfl⟩ := SemVer.parse_eq_ok_iff.mp hparse
        exact ⟨v, hraw, hv⟩
      next => cases h
    · rintro ⟨v, hother, hv⟩
      obtain rfl := Json.str.inj (Option.some.inj (hraw.symm.trans hother))
      rw [SemVer.parse_eq_ok_iff.mpr ⟨hv, rfl⟩]
  next value hvalue hnone =>
    refine iff_of_false nofun ?_
    rintro ⟨v, hother, -⟩
    exact hvalue _ (Option.some.inj (hnone.symm.trans hother))
  next hnone =>
    refine iff_of_false nofun ?_
    rintro ⟨v, hother, -⟩
    cases hnone.symm.trans hother

theorem serviceVersionProblem?_eq_none_iff {bundle : String} {manifest : Json} :
    serviceVersionProblem? bundle manifest = .ok none ↔ HasVersion manifest := by
  rw [serviceVersionProblem?, HasVersion]
  split
  next hnone => simp [hnone]
  next hnull => simp [hnull]
  next spec hspec =>
    rw [Except.ok.injEq, versionProblem?_eq_none_iff]
    simp [hspec]
  next other _ hmapping hother =>
    refine iff_of_false nofun ?_
    rintro ⟨spec, v, hspec, -⟩
    exact hmapping spec (Option.some.inj (hother.symm.trans hspec))

/-- The service version of a bundle is the only one, wherever it stands among the manifests. -/
theorem serviceVersion?_eq_some_iff {b : Bundle} {manifest : Json} :
    b.serviceVersion? = some manifest ↔
      ∃ before after, b.manifests = before ++ manifest :: after ∧ IsServiceVersion manifest ∧
        ∀ other ∈ before ++ after, ¬IsServiceVersion other := by
  have hsingle : b.serviceVersion? = some manifest ↔ b.serviceVersions = [manifest] := by
    rw [Bundle.serviceVersion?]
    split
    next found hfound => simp [hfound]
    next hother => exact iff_of_false nofun (hother manifest)
  rw [hsingle, Bundle.serviceVersions, List.filter_eq_cons_iff]
  simp only [List.filter_eq_nil_iff, isServiceVersion_iff, List.forall_mem_append]
  constructor
  · rintro ⟨before, after, hsplit, hbefore, hmanifest, hafter⟩
    exact ⟨before, after, hsplit, hmanifest, hbefore, hafter⟩
  · rintro ⟨before, after, hsplit, hmanifest, hbefore, hafter⟩
    exact ⟨before, after, hsplit, hbefore, hmanifest, hafter⟩

theorem bundleProblem?_eq_none_iff {b : Bundle} :
    bundleProblem? b = .ok none ↔ VersionFits b := by
  have hfits : VersionFits b ↔
      ∃ manifest, b.serviceVersion? = some manifest ∧ HasVersion manifest := by
    simp only [serviceVersion?_eq_some_iff]
    constructor
    · rintro ⟨before, manifest, after, hsplit, hmanifest, hothers, hversion⟩
      exact ⟨manifest, ⟨before, after, hsplit, hmanifest, hothers⟩, hversion⟩
    · rintro ⟨manifest, ⟨before, after, hsplit, hmanifest, hothers⟩, hversion⟩
      exact ⟨before, manifest, after, hsplit, hmanifest, hothers, hversion⟩
  rw [hfits, bundleProblem?]
  cases hfound : b.serviceVersion? with
  | none => simp
  | some manifest => simp [serviceVersionProblem?_eq_none_iff]

theorem versionProblem_ne_empty {bundle : String} {spec : List (String × Json)} {problem : String}
    (h : versionProblem? bundle spec = some problem) : problem ≠ "" := by
  unfold versionProblem? at h
  split at h
  · split at h
    · cases h
    · cases h
      simp
  · cases h
    simp
  · cases h
    simp

theorem bundleProblem_ne_empty {b : Bundle} {problem : String}
    (h : bundleProblem? b = .ok (some problem)) : problem ≠ "" := by
  unfold bundleProblem? at h
  split at h
  · unfold serviceVersionProblem? at h
    split at h
    · cases h
      simp
    · cases h
      simp
    · exact versionProblem_ne_empty (Except.ok.inj h)
    · cases h
  · cases h
    simp

/-- There is one kind of error, about input that cannot be judged. -/
theorem exists_malformedInput {b : Bundle} {e : RuleError} (h : bundleProblem? b = .error e) :
    ∃ reason, e = .malformedInput reason := by
  unfold bundleProblem? at h
  split at h
  · unfold serviceVersionProblem? at h
    split at h
    · cases h
    · cases h
    · cases h
    · exact ⟨_, (Except.error.inj h).symm⟩
  · cases h

/-- When all bundles can be judged, their problems are those that are listed. -/
theorem bundleProblems_eq_ok {bundles : List Bundle} {problems : List String}
    (h : bundleProblems bundles = .ok problems) :
    (∀ b ∈ bundles, ∃ problem, bundleProblem? b = .ok problem) ∧
      ∀ problem, problem ∈ problems ↔ ∃ b ∈ bundles, bundleProblem? b = .ok (some problem) := by
  rw [bundleProblems_eq_mapM, Fallible.map_eq_ok_iff] at h
  obtain ⟨found, hfound, rfl⟩ := h
  refine ⟨fun b hb => Fallible.exists_ok_of_mapM hfound hb, fun problem => ?_⟩
  rw [List.reduceOption_mem_iff, Fallible.mem_iff_of_mapM hfound]

theorem bundleProblems_eq_nil_iff {bundles : List Bundle} {problems : List String}
    (h : bundleProblems bundles = .ok problems) :
    problems = [] ↔ ∀ b ∈ bundles, VersionFits b := by
  obtain ⟨hjudged, hmem⟩ := bundleProblems_eq_ok h
  simp only [List.eq_nil_iff_forall_not_mem, hmem, ← bundleProblem?_eq_none_iff]
  constructor
  · intro hnone b hb
    obtain ⟨problem, hproblem⟩ := hjudged b hb
    cases problem with
    | none => exact hproblem
    | some problem => exact absurd ⟨b, hb, hproblem⟩ (hnone problem)
  · rintro hnone problem ⟨b, hb, hproblem⟩
    cases (hnone b hb).symm.trans hproblem

/-! ### All rules -/

/-- A rule decides its condition. The one on service versions may also give up when its condition
does not hold. -/
inductive Answers (subject : Subject) (rule : Rule) : Prop
  | verdict {v : Verdict} (hrun : rule.runner subject = .verdict v)
      (h : Decides (Holds subject rule.code) v)
  | malformed {reason : String} (hrun : rule.runner subject = .error (.malformedInput reason))
      (hcode : rule.code = "AM0008") (h : ¬Holds subject rule.code)

theorem answers_serviceVersion (subject : Subject) : Answers subject serviceVersion := by
  cases h : bundleProblems subject.bundles with
  | ok problems =>
    refine .verdict (v := .check problems.isEmpty (String.intercalate "; " problems)) ?_ ?_
    · simp [serviceVersion, judgeServiceVersions, h]
    · refine decides_problems (bundleProblems_eq_nil_iff h) fun problem hproblem => ?_
      obtain ⟨b, -, hb⟩ := ((bundleProblems_eq_ok h).2 problem).mp hproblem
      exact bundleProblem_ne_empty hb
  | error e =>
    obtain ⟨b, hfind, hb⟩ := bundleProblems_error h
    obtain ⟨reason, rfl⟩ := exists_malformedInput hb
    have hrun : serviceVersion.runner subject = .error (.malformedInput reason) := by
      simp [serviceVersion, judgeServiceVersions, h]
    refine .malformed hrun rfl fun hall => ?_
    have hfits := hall b (List.mem_of_find?_eq_some hfind)
    cases hb.symm.trans (bundleProblem?_eq_none_iff.mpr hfits)

/-- Every built-in rule answers for the condition of its code. -/
theorem answers_builtin {rule : Rule} (hr : rule ∈ builtin) (subject : Subject) :
    Answers subject rule := by
  simp only [builtin, List.mem_cons, List.not_mem_nil, or_false] at hr
  rcases hr with rfl | rfl | rfl | rfl | rfl | rfl | rfl | rfl
  · exact .verdict rfl (decides_judgeDefaultChannel subject.addon)
  · exact .verdict rfl (decides_judgeLabel subject.addon)
  · exact .verdict rfl (decides_judgeOperatorName subject)
  · exact .verdict rfl (decides_judgeIcon subject.addon)
  · exact .verdict rfl (decides_judgeTestHarness subject.addon)
  · exact .verdict rfl (decides_judgeTargetNamespace subject.addon)
  · exact .verdict rfl (decides_judgeIndexImage subject.artifact)
  · exact answers_serviceVersion subject

end AddonLint.Rules
