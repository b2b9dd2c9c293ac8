import AddonLint.Proofs.Conditions

/-!
# What is reported of service versions

A bundle is in order, or has one problem, or cannot be judged. The rule gives up on the first
bundle that cannot be judged and then says nothing of the others. When there is no such bundle,
its message lists one problem for each bundle that is not in order.
-/
namespace AddonLint.Rules

open Fallible

/-! ### Bundles that cannot be judged and bundles with a problem -/

def IsOnlyServiceVersion (b : Bundle) (manifest : Json) : Prop :=
  ∃ before after, b.manifests = before ++ manifest :: after ∧ IsServiceVersion manifest ∧
    ∀ other ∈ before ++ after, ¬IsServiceVersion other

/-- A value that is neither `null` nor a mapping, and the word for its kind. -/
inductive Misfit : Json → String → Prop
  | bool (b : Bool) : Misfit (.bool b) "boolean"
  | int (n : Int) : Misfit (.int n) "number"
  | float (x : Binary64) : Misfit (.float x) "number"
  | str (s : String) : Misfit (.str s) "string"
  | arr (items : List Json) : Misfit (.arr items) "sequence"

/-- The only ClusterServiceVersion of a bundle has a `spec` of a kind that cannot be judged. -/
def Unjudgeable (b : Bundle) (kind : String) : Prop :=
  ∃ manifest spec, IsOnlyServiceVersion b manifest ∧ manifest.field? "spec" = some spec ∧
    Misfit spec kind

/-- Why a bundle cannot be judged. -/
def unjudgeableReason (b : Bundle) (kind : String) : String :=
  "`spec` of the ClusterServiceVersion in bundle " ++ b.name ++ " is a " ++ kind ++
    ", not a mapping"

instance decidableIsServiceVersion : DecidablePred IsServiceVersion := fun _ =>
  decidable_of_iff _ isServiceVersion_iff

instance decidableVersionFits : DecidablePred VersionFits := fun _ =>
  decidable_of_iff _ bundleProblem?_eq_none_iff

/-- What is wrong with a bundle that can be judged, and the words for it. -/
inductive Problem (b : Bundle) : String → Prop
  | count {n : Nat} (hcount : b.manifests.countP (IsServiceVersion ·) = n) (hne : n ≠ 1) :
      Problem b ("bundle " ++ b.name ++ " carries " ++ toString n ++
        " ClusterServiceVersions, expected exactly one")
  | spec {manifest : Json} (honly : IsOnlyServiceVersion b manifest)
      (hspec : manifest.field? "spec" = none ∨ manifest.field? "spec" = some .null) :
      Problem b ("ClusterServiceVersion of bundle " ++ b.name ++ " has no `spec`")
  | missing {manifest : Json} {spec : List (String × Json)}
      (honly : IsOnlyServiceVersion b manifest) (hspec : manifest.field? "spec" = some (.obj spec))
      (hversion : (Json.obj spec).field? "version" = none) :
      Problem b ("`spec.version` missing in bundle " ++ b.name)
  | kind {manifest value : Json} {spec : List (String × Json)}
      (honly : IsOnlyServiceVersion b manifest) (hspec : manifest.field? "spec" = some (.obj spec))
      (hversion : (Json.obj spec).field? "version" = some value)
      (hvalue : ∀ raw, value ≠ .str raw) :
      Problem b ("`spec.version` of bundle " ++ b.name ++ " is not a string")
  | text {manifest : Json} {spec : List (String × Json)} {raw : String}
      (honly : IsOnlyServiceVersion b manifest) (hspec : manifest.field? "spec" = some (.obj spec))
      (hversion : (Json.obj spec).field? "version" = some (.str raw))
      (hraw : ∀ v : SemVer, v.IsWellFormed → raw ≠ v.text) :
      Problem b ("`spec.version` " ++ Text.quoted raw ++ " of bundle " ++ b.name ++
        " is not a semantic version")

/-! ### One bundle -/

theorem serviceVersion?_of_only {b : Bundle} {manifest : Json}
    (h : IsOnlyServiceVersion b manifest) : b.serviceVersion? = some manifest :=
  serviceVersion?_eq_some_iff.mpr h

theorem countP_isServiceVersion (b : Bundle) :
    b.manifests.countP (IsServiceVersion ·) = b.serviceVersions.length := by
  rw [Bundle.serviceVersions, ← List.countP_eq_length_filter]
  refine List.countP_congr fun manifest _ => ?_
  rw [decide_eq_true_eq, isServiceVersion_iff]

/-- There is one ClusterServiceVersion to be found exactly when their number is one. -/
theorem serviceVersion?_eq_none_iff {b : Bundle} :
    b.serviceVersion? = none ↔ b.manifests.countP (IsServiceVersion ·) ≠ 1 := by
  rw [countP_isServiceVersion, Bundle.serviceVersion?]
  split
  next manifest hone => simp [hone]
  next hother =>
    refine iff_of_true rfl fun hlength => ?_
    obtain ⟨manifest, hone⟩ := List.length_eq_one_iff.mp hlength
    exact hother manifest hone

theorem not_parses_iff {raw : String} :
    (∃ fault, SemVer.parse raw = .error fault) ↔ ∀ v : SemVer, v.IsWellFormed → raw ≠ v.text := by
  constructor
  · rintro ⟨fault, hfault⟩ v hv htext
    have hparse := SemVer.parse_eq_ok_iff.mpr ⟨hv, htext⟩
    cases hfault.symm.trans hparse
  · intro hnone
    cases hparse : SemVer.parse raw with
    | error fault => exact ⟨fault, rfl⟩
    | ok v =>
      obtain ⟨hv, htext⟩ := SemVer.parse_eq_ok_iff.mp hparse
      exact absurd htext (hnone v hv)

theorem problem_of_versionProblem {b : Bundle} {manifest : Json} {spec : List (String × Json)}
    {text : String} (honly : IsOnlyServiceVersion b manifest)
    (hspec : manifest.field? "spec" = some (.obj spec))
    (h : versionProblem? b.name spec = some text) : Problem b text := by
  unfold versionProblem? at h
  split at h
  next raw hversion =>
    split at h
    next => cases h
    next fault hfault =>
      cases h
      exact .text honly hspec hversion (not_parses_iff.mp ⟨fault, hfault⟩)
  next value hvalue hversion =>
    cases h
    exact .kind honly hspec hversion hvalue
  next hversion =>
    cases h
    exact .missing honly hspec hversion

theorem bundleProblem?_eq_some_iff {b : Bundle} {text : String} :
    bundleProblem? b = .ok (some text) ↔ Problem b text := by
  constructor
  · intro h
    unfold bundleProblem? at h
    split at h
    next manifest hfound =>
      have honly : IsOnlyServiceVersion b manifest := serviceVersion?_eq_some_iff.mp hfound
      unfold serviceVersionProblem? at h
      split at h
      next hnone =>
        cases h
        exact .spec honly (.inl hnone)
      next hnull =>
        cases h
        exact .spec honly (.inr hnull)
      next spec hspec => exact problem_of_versionProblem honly hspec (Except.ok.inj h)
      next => cases h
    next hnone =>
      cases h
      have hcount := countP_isServiceVersion b
      exact .count hcount (hcount ▸ serviceVersion?_eq_none_iff.mp hnone)
  · intro h
    cases h with
    | count hcount hne =>
      have hnone := serviceVersion?_eq_none_iff.mpr (hcount ▸ hne)
      rw [bundleProblem?, hnone, ← hcount, countP_isServiceVersion]
    | spec honly hspec =>
      rw [bundleProblem?, serviceVersion?_of_only honly]
      rcases hspec with hspec | hspec
      · simp only [serviceVersionProblem?, hspec]
      · simp only [serviceVersionProblem?, hspec]
    | missing honly hspec hversion =>
      rw [Json.field?] at hversion
      rw [bundleProblem?, serviceVersion?_of_only honly]
      simp only [serviceVersionProblem?, hspec, versionProblem?, hversion]
    | kind honly hspec hversion hvalue =>
      rw [Json.field?] at hversion
      rw [bundleProblem?, serviceVersion?_of_only honly]
      simp only [serviceVersionProblem?, hspec, versionProblem?, hversion]
    | text honly hspec hversion hraw =>
      obtain ⟨fault, hfault⟩ := not_parses_iff.mpr hraw
      rw [Json.field?] at hversion
      rw [bundleProblem?, serviceVersion?_of_only honly]
      simp only [serviceVersionProblem?, hspec, versionProblem?, hversion, hfault]

/-- Anything but `null` and a mapping is a misfit. -/
theorem misfit_kindOf {value : Json} (hnull : value ≠ .null)
    (hmapping : ∀ members, value ≠ .obj members) : Misfit value (kindOf value) := by
  cases value with
  | null => exact absurd rfl hnull
  | bool b => exact .bool b
  | int n => exact .int n
  | float x => exact .float x
  | str s => exact .str s
  | arr items => exact .arr items
  | obj members => exact absurd rfl (hmapping members)

theorem serviceVersionProblem?_of_misfit {b : Bundle} {manifest spec : Json} {kind : String}
    (hspec : manifest.field? "spec" = some spec) (h : Misfit spec kind) :
    serviceVersionProblem? b.name manifest =
      .error (.malformedInput (unjudgeableReason b kind)) := by
  unfold serviceVersionProblem? unjudgeableReason
  rw [hspec]
  cases h <;> rfl

/-- Only a `spec` of a kind that cannot be judged leaves a bundle without a verdict. -/
theorem bundleProblem?_eq_error_iff {b : Bundle} {e : RuleError} :
    bundleProblem? b = .error e ↔
      ∃ kind, Unjudgeable b kind ∧ e = .malformedInput (unjudgeableReason b kind) := by
  constructor
  · intro h
    unfold bundleProblem? at h
    split at h
    next manifest hfound =>
      have honly : IsOnlyServiceVersion b manifest := serviceVersion?_eq_some_iff.mp hfound
      unfold serviceVersionProblem? at h
      split at h
      next => cases h
      next => cases h
      next => cases h
      next spec hnull hmapping hspec =>
        have hmisfit : Misfit spec (kindOf spec) := misfit_kindOf hnull hmapping
        exact ⟨kindOf spec, ⟨manifest, spec, honly, hspec, hmisfit⟩, (Except.error.inj h).symm⟩
    next => cases h
  · rintro ⟨kind, ⟨manifest, spec, honly, hspec, hmisfit⟩, he⟩
    have hproblem := serviceVersionProblem?_of_misfit (b := b) hspec hmisfit
    rw [bundleProblem?, serviceVersion?_of_only honly, he]
    exact hproblem

/-! ### All bundles -/

theorem exists_bundleProblem?_iff {b : Bundle} :
    (∃ problem, bundleProblem? b = .ok problem) ↔ ∀ kind, ¬Unjudgeable b kind := by
  constructor
  · rintro ⟨problem, hproblem⟩ kind hkind
    cases hproblem.symm.trans (bundleProblem?_eq_error_iff.mpr ⟨kind, hkind, rfl⟩)
  · intro h
    cases hb : bundleProblem? b with
    | ok problem => exact ⟨problem, rfl⟩
    | error e =>
      obtain ⟨kind, hkind, -⟩ := bundleProblem?_eq_error_iff.mp hb
      exact absurd hkind (h kind)

/-- The bundles are given up on at the first that cannot be judged. -/
theorem bundleProblems_eq_error_iff {bundles : List Bundle} {e : RuleError} :
    bundleProblems bundles = .error e ↔ ∃ before b after kind,
      bundles = before ++ b :: after ∧ (∀ other ∈ before, ∀ kind, ¬Unjudgeable other kind) ∧
        Unjudgeable b kind ∧ e = .malformedInput (unjudgeableReason b kind) := by
  rw [bundleProblems_eq_mapM, map_eq_error_iff, mapM_eq_error_iff]
  simp only [exists_bundleProblem?_iff, bundleProblem?_eq_error_iff]
  constructor
  · rintro ⟨before, b, after, hsplit, hbefore, kind, hkind, he⟩
    exact ⟨before, b, after, kind, hsplit, hbefore, hkind, he⟩
  · rintro ⟨before, b, after, kind, hsplit, hbefore, hkind, he⟩
    exact ⟨before, b, after, hsplit, hbefore, kind, hkind, he⟩

/-- A bundle that could be judged is at fault exactly if its versions do not fit. -/
theorem isFaulty_eq_not_versionFits {b : Bundle} (h : ∃ problem, bundleProblem? b = .ok problem) :
    isFaulty b = decide (¬VersionFits b) := by
  obtain ⟨problem, hproblem⟩ := h
  have hfits : VersionFits b ↔ problem = none := by
    rw [← bundleProblem?_eq_none_iff, hproblem, Except.ok.injEq]
  cases problem with
  | none => simp [isFaulty, hproblem, hfits]
  | some text => simp [isFaulty, hproblem, hfits]

/-- What is collected is one problem for each bundle that is not in order. -/
theorem problems_of_bundleProblems {bundles : List Bundle} {problems : List String}
    (h : bundleProblems bundles = .ok problems) :
    List.Forall₂ Problem (bundles.filter (¬VersionFits ·)) problems := by
  obtain ⟨hjudged, -⟩ := bundleProblems_eq_ok h
  have hfilter : bundles.filter isFaulty = bundles.filter (¬VersionFits ·) :=
    List.filter_congr fun b hb => isFaulty_eq_not_versionFits (hjudged b hb)
  rw [← hfilter]
  exact (forall₂_of_bundleProblems h).imp fun _ _ hb => bundleProblem?_eq_some_iff.mp hb

/-- One bundle that cannot be judged suffices for the check to end in an error. -/
theorem exists_bundleProblems_iff {bundles : List Bundle} :
    (∃ problems, bundleProblems bundles = .ok problems) ↔
      ∀ b ∈ bundles, ∀ kind, ¬Unjudgeable b kind := by
  simp only [bundleProblems_eq_mapM, map_eq_ok_iff, ← exists_bundleProblem?_iff]
  constructor
  · rintro ⟨_, found, hfound, -⟩ b hb
    exact exists_ok_of_mapM hfound hb
  · intro h
    obtain ⟨found, hfound⟩ := exists_mapM_eq_ok h
    exact ⟨_, found, hfound, rfl⟩

theorem runner_serviceVersion (subject : Subject) :
    serviceVersion.runner subject = judgeServiceVersions subject.bundles := rfl

theorem judgeServiceVersions_of_error {bundles : List Bundle} {e : RuleError}
    (h : bundleProblems bundles = .error e) : judgeServiceVersions bundles = .error e := by
  rw [judgeServiceVersions, h]

theorem judgeServiceVersions_of_ok {bundles : List Bundle} {problems : List String}
    (h : bundleProblems bundles = .ok problems) :
    judgeServiceVersions bundles =
      .verdict (.check problems.isEmpty (String.intercalate "; " problems)) := by
  rw [judgeServiceVersions, h]

/-- The rule gives up exactly when a bundle cannot be judged, and then it names the first such
bundle and the kind of its `spec`. Otherwise it passes when all bundles are in order, and fails
with one problem for each bundle that is not. -/
theorem serviceVersion_reports (subject : Subject) :
    ((∃ reason, serviceVersion.runner subject = .error (.malformedInput reason)) ↔
        ∃ b ∈ subject.bundles, ∃ kind, Unjudgeable b kind) ∧
      (∀ before b after kind, subject.bundles = before ++ b :: after →
        (∀ other ∈ before, ∀ kind, ¬Unjudgeable other kind) → Unjudgeable b kind →
          serviceVersion.runner subject =
            .error (.malformedInput (unjudgeableReason b kind))) ∧
      (serviceVersion.runner subject = .verdict .pass ↔ ∀ b ∈ subject.bundles, VersionFits b) ∧
      ((∀ b ∈ subject.bundles, ∀ kind, ¬Unjudgeable b kind) →
        (∃ b ∈ subject.bundles, ¬VersionFits b) → ∃ problems,
          serviceVersion.runner subject =
              .verdict (.fail (String.intercalate "; " problems)) ∧
            List.Forall₂ Problem (subject.bundles.filter (¬VersionFits ·)) problems) := by
  rw [runner_serviceVersion]
  have hgivesUp (before : List Bundle) (b : Bundle) (after : List Bundle) (kind : String)
      (hsplit : subject.bundles = before ++ b :: after)
      (hbefore : ∀ other ∈ before, ∀ kind, ¬Unjudgeable other kind) (hkind : Unjudgeable b kind) :
      judgeServiceVersions subject.bundles =
        .error (.malformedInput (unjudgeableReason b kind)) :=
    judgeServiceVersions_of_error
      (bundleProblems_eq_error_iff.mpr ⟨before, b, after, kind, hsplit, hbefore, hkind, rfl⟩)
  cases h : bundleProblems subject.bundles with
  | error e =>
    have hrun := judgeServiceVersions_of_error h
    obtain ⟨before, b, after, kind, hsplit, hbefore, hkind, rfl⟩ :=
      bundleProblems_eq_error_iff.mp h
    have hb : b ∈ subject.bundles := hsplit ▸ List.mem_append_right before List.mem_cons_self
    refine ⟨iff_of_true ⟨_, hrun⟩ ⟨b, hb, kind, hkind⟩, hgivesUp, ?_, ?_⟩
    · refine iff_of_false (fun hpass => by cases hrun.symm.trans hpass) fun hfits => ?_
      have hnone := bundleProblem?_eq_none_iff.mpr (hfits b hb)
      exact exists_bundleProblem?_iff.mp ⟨none, hnone⟩ kind hkind
    · exact fun hjudged => absurd hkind (hjudged b hb kind)
  | ok problems =>
    have hrun := judgeServiceVersions_of_ok h
    have hjudged := exists_bundleProblems_iff.mp ⟨problems, h⟩
    have hnil := bundleProblems_eq_nil_iff h
    refine ⟨?_, hgivesUp, ?_, ?_⟩
    · refine iff_of_false ?_ ?_
      · rintro ⟨reason, herror⟩
        cases hrun.symm.trans herror
      · rintro ⟨b, hb, kind, hkind⟩
        exact hjudged b hb kind hkind
    · rw [hrun, ← hnil, RunnerEnd.verdict.injEq]
      cases problems with
      | nil => exact iff_of_true rfl rfl
      | cons text problems => exact iff_of_false nofun nofun
    · rintro - ⟨b, hb, hfits⟩
      refine ⟨problems, ?_, problems_of_bundleProblems h⟩
      cases problems with
      | nil => exact absurd (hnil.mp rfl b hb) hfits
      | cons text problems => exact hrun

end AddonLint.Rules
