import AddonLint.Proofs.Fallible
import AddonLint.Proofs.LineBreaks
import AddonLint.Rules.Builtin
import Mathlib.Data.List.ReduceOption

/-!
# What the built-in rules say

The message of a rule quotes some texts of the subject and shows others as they are.
Quoted texts never break a line. So the line breaks of a message are those of the texts
that it does not quote, and for each built-in rule it is known which texts these are.
-/
namespace AddonLint

open Text (breaks breaks_of_not_mem breaks_intercalate totalBreaks totalBreaks_cons
  totalBreaks_append)

/-- What a rule says when it does not pass: the message of its failure or the text of its
error. -/
def Rule.complaint? (rule : Rule) (subject : Subject) : Option String :=
  match rule.outcome subject with
  | .ok v => if v.passed then none else some v.message
  | .error e => some e.message

/-- A verdict that is not a pass has the line breaks of the given texts. -/
def Verdict.Shows (v : Verdict) (texts : List String) : Prop :=
  v.passed = false → breaks v.message = totalBreaks texts

theorem Verdict.shows_fail {message : String} {texts : List String}
    (h : breaks message = totalBreaks texts) : (Verdict.fail message).Shows texts :=
  fun _ => h

theorem Verdict.shows_check {passed : Bool} {message : String} {texts : List String}
    (h : passed = false → breaks message = totalBreaks texts) :
    (Verdict.check passed message).Shows texts := by
  cases passed with
  | true => exact nofun
  | false => exact fun _ => h rfl

namespace Rules

open Fallible

/-! ### The texts that are not quoted -/

def isUnjudged (b : Bundle) : Bool :=
  match bundleProblem? b with
  | .ok _ => false
  | .error _ => true

/-- Whether a bundle was judged and has a problem. -/
def isFaulty (b : Bundle) : Bool :=
  match bundleProblem? b with
  | .ok problem => problem.isSome
  | .error _ => false

/-- The bundles that are named when service versions are not in order: the first one that
cannot be judged, or else all with a problem. -/
def blamed (bundles : List Bundle) : List Bundle :=
  match bundles.find? isUnjudged with
  | some b => [b]
  | none => bundles.filter isFaulty

def strays (subject : Subject) : List Bundle :=
  subject.bundles.filter fun b => b.package ≠ subject.addon.operatorName

/-- The name of an image set that lists no related images. -/
def bareImageSet : Artifact → List String
  | .imageSet set => if set.relatedImages.isEmpty then [set.name] else []
  | .staticIndexImage _ => []

/-- The texts of a subject that the rule of a code shows as they are when it does not
pass. -/
def unquoted (subject : Subject) (code : String) : List String :=
  match code with
  | "AM0003" =>
    if subject.bundles.isEmpty then [subject.artifact.indexImage]
    else (strays subject).map Bundle.name
  | "AM0006" =>
    if subject.addon.targetNamespace = "" then [subject.addon.id]
    else subject.addon.namespaces ++ [subject.addon.id]
  | "AM0007" => bareImageSet subject.artifact
  | "AM0008" => (blamed subject.bundles).map Bundle.name
  | _ => [subject.addon.id]

/-! ### Rules on the metadata -/

section Metadata

variable (addon : AddonMetadata)

theorem shows_notFound {field : String} (h : '\n' ∉ field.toList) :
    (notFound field addon).Shows [addon.id] := by
  refine Verdict.shows_fail ?_
  -- The words around the texts are written out, so `decide` sees that they break no line.
  simp (disch := first | decide | exact h)

theorem shows_judgeDefaultChannel : (judgeDefaultChannel addon).Shows [addon.id] := by
  unfold judgeDefaultChannel
  split
  · exact shows_notFound addon (by decide)
  · refine Verdict.shows_check fun _ => ?_
    simp (disch := decide)

theorem shows_judgeLabel : (judgeLabel addon).Shows [addon.id] := by
  refine Verdict.shows_check fun _ => ?_
  simp (disch := decide)

theorem shows_judgeIcon : (judgeIcon addon).Shows [addon.id] := by
  unfold judgeIcon
  split
  · exact shows_notFound addon (by decide)
  · split
    · refine Verdict.shows_fail ?_
      simp (disch := decide)
    · refine Verdict.shows_check fun _ => ?_
      simp (disch := decide)

theorem shows_judgeTestHarness : (judgeTestHarness addon).Shows [addon.id] := by
  unfold judgeTestHarness
  split
  · exact shows_notFound addon (by decide)
  · refine Verdict.shows_check fun _ => ?_
    simp (disch := decide)

/-- An empty namespace is reported with the addon, another one with the namespaces to choose from.
-/
theorem shows_judgeTargetNamespace :
    (judgeTargetNamespace addon).Shows
      (if addon.targetNamespace = "" then [addon.id] else addon.namespaces ++ [addon.id]) := by
  unfold judgeTargetNamespace
  split
  · exact shows_notFound addon (by decide)
  · refine Verdict.shows_check fun _ => ?_
    simp (disch := decide) [totalBreaks]

end Metadata

/-! ### Rules on the artifact and its bundles -/

/-- Of a stray bundle only the name is shown as it is; its package is quoted. -/
@[simp] theorem breaks_describeStray (b : Bundle) :
    breaks (describeStray b) = breaks b.name := by
  simp (disch := decide) [describeStray]

theorem shows_judgeOperatorName (subject : Subject) :
    (judgeOperatorName subject).Shows
      (if subject.bundles.isEmpty then [subject.artifact.indexImage]
        else (strays subject).map Bundle.name) := by
  unfold judgeOperatorName
  dsimp only
  split
  · refine Verdict.shows_fail ?_
    simp (disch := decide)
  · refine Verdict.shows_check fun _ => ?_
    simp (disch := decide) [totalBreaks, strays, Function.comp_def]

/-- The index image itself is quoted where it is misplaced. -/
theorem breaks_indexImageProblem {artifact : Artifact} {problem : String}
    (h : indexImageProblem? artifact = some problem) : breaks problem = 0 := by
  unfold indexImageProblem? at h
  split at h
  · cases h
  · cases h
    simp (disch := decide)

theorem breaks_relatedImagesProblem (artifact : Artifact) :
    totalBreaks (relatedImagesProblem? artifact).toList = totalBreaks (bareImageSet artifact) := by
  unfold relatedImagesProblem? bareImageSet
  cases artifact with
  | staticIndexImage image => rfl
  | imageSet set =>
    dsimp only
    split
    · simp (disch := decide)
    · rfl

theorem shows_judgeIndexImage (artifact : Artifact) :
    (judgeIndexImage artifact).Shows (bareImageSet artifact) := by
  refine Verdict.shows_check fun _ => ?_
  have hindex : totalBreaks (indexImageProblem? artifact).toList = 0 := by
    cases h : indexImageProblem? artifact with
    | none => rfl
    | some problem => simp [breaks_indexImageProblem h]
  rw [breaks_intercalate (by decide), totalBreaks_append, hindex, Nat.zero_add,
    breaks_relatedImagesProblem]

/-! ### The rule on service versions -/

theorem breaks_versionProblem {bundle : String} {spec : List (String × Json)} {problem : String}
    (h : versionProblem? bundle spec = some problem) : breaks problem = breaks bundle := by
  unfold versionProblem? at h
  split at h
  · split at h
    · cases h
    · cases h
      simp (disch := decide)
  · cases h
    simp (disch := decide)
  · cases h
    simp (disch := decide)

@[simp] theorem breaks_kindOf (value : Json) : breaks (kindOf value) = 0 := by
  refine breaks_of_not_mem ?_
  cases value <;> simp [kindOf]

theorem breaks_serviceVersionProblem {bundle : String} {manifest : Json} {problem : String}
    (h : serviceVersionProblem? bundle manifest = .ok (some problem)) :
    breaks problem = breaks bundle := by
  unfold serviceVersionProblem? at h
  split at h
  · cases h
    simp (disch := decide)
  · cases h
    simp (disch := decide)
  · exact breaks_versionProblem (Except.ok.inj h)
  · cases h

/-- What is said about input that cannot be judged is shown as it is. -/
theorem breaks_malformedInput (reason : String) :
    breaks (RuleError.malformedInput reason).message = breaks reason := by
  change breaks ("malformed input: " ++ reason) = _
  simp (disch := decide)

theorem breaks_serviceVersionError {bundle : String} {manifest : Json} {e : RuleError}
    (h : serviceVersionProblem? bundle manifest = .error e) :
    breaks e.message = breaks bundle := by
  unfold serviceVersionProblem? at h
  split at h
  · cases h
  · cases h
  · cases h
  · obtain rfl := Except.error.inj h
    rw [breaks_malformedInput]
    simp (disch := decide)

/-- A problem of a bundle shows its name, once, and quotes all other texts. -/
theorem breaks_bundleProblem {b : Bundle} {problem : String}
    (h : bundleProblem? b = .ok (some problem)) : breaks problem = breaks b.name := by
  unfold bundleProblem? at h
  split at h
  · exact breaks_serviceVersionProblem h
  · cases h
    simp (disch := decide)

theorem breaks_bundleError {b : Bundle} {e : RuleError} (h : bundleProblem? b = .error e) :
    breaks e.message = breaks b.name := by
  unfold bundleProblem? at h
  split at h
  · exact breaks_serviceVersionError h
  · cases h

/-- The bundles are judged one after the other, and what is wrong with them is collected. -/
theorem bundleProblems_eq_mapM (bundles : List Bundle) :
    bundleProblems bundles = (bundles.mapM bundleProblem?).map List.reduceOption := by
  induction bundles with
  | nil => rfl
  | cons b bundles ih =>
    rw [bundleProblems, List.mapM_cons, ih]
    cases bundleProblem? b with
    | error e => rfl
    | ok problem =>
      cases bundles.mapM bundleProblem? with
      | error e => rfl
      | ok problems => cases problem <;> rfl

/-- What is collected is one problem for each bundle that is not in order. -/
theorem forall₂_of_bundleProblems {bundles : List Bundle} {problems : List String}
    (h : bundleProblems bundles = .ok problems) :
    List.Forall₂ (fun b problem => bundleProblem? b = .ok (some problem))
      (bundles.filter isFaulty) problems := by
  rw [bundleProblems_eq_mapM, map_eq_ok_iff] at h
  obtain ⟨found, hfound, rfl⟩ := h
  induction mapM_eq_ok_iff.mp hfound with
  | nil => exact .nil
  | @cons b problem bundles found hb hrest ih =>
    have ih := ih (mapM_eq_ok_iff.mpr hrest)
    cases problem with
    | none =>
      rw [List.filter_cons_of_neg (by simp [isFaulty, hb]), List.reduceOption_cons_of_none]
      exact ih
    | some text =>
      rw [List.filter_cons_of_pos (by simp [isFaulty, hb]), List.reduceOption_cons_of_some]
      exact .cons hb ih

theorem isUnjudged_of_ok {b : Bundle} (h : ∃ problem, bundleProblem? b = .ok problem) :
    ¬isUnjudged b = true := by
  obtain ⟨problem, hproblem⟩ := h
  simp [isUnjudged, hproblem]

theorem bundleProblems_ok {bundles : List Bundle} {problems : List String}
    (h : bundleProblems bundles = .ok problems) :
    bundles.find? isUnjudged = none ∧
      totalBreaks problems = totalBreaks ((bundles.filter isFaulty).map Bundle.name) := by
  constructor
  · rw [bundleProblems_eq_mapM, map_eq_ok_iff] at h
    obtain ⟨found, hfound, -⟩ := h
    exact List.find?_eq_none.mpr fun b hb => isUnjudged_of_ok (exists_ok_of_mapM hfound hb)
  · have hall := forall₂_of_bundleProblems h
    clear h
    generalize bundles.filter isFaulty = faulty at hall
    induction hall with
    | nil => rfl
    | cons hb _ ih =>
      rw [List.map_cons, totalBreaks_cons, totalBreaks_cons, breaks_bundleProblem hb, ih]

/-- The first bundle that cannot be judged is the only one that is named. -/
theorem bundleProblems_error {bundles : List Bundle} {e : RuleError}
    (h : bundleProblems bundles = .error e) :
    ∃ b, bundles.find? isUnjudged = some b ∧ bundleProblem? b = .error e := by
  rw [bundleProblems_eq_mapM, map_eq_error_iff, mapM_eq_error_iff] at h
  obtain ⟨before, b, after, rfl, hbefore, hb⟩ := h
  have hunjudged : isUnjudged b = true := by simp [isUnjudged, hb]
  have hnone : before.find? isUnjudged = none :=
    List.find?_eq_none.mpr fun other hother => isUnjudged_of_ok (hbefore other hother)
  refine ⟨b, ?_, hb⟩
  rw [List.find?_append, hnone, List.find?_cons_of_pos hunjudged, Option.none_or]

/-! ### All rules -/

theorem breaks_of_shows {rule : Rule} {subject : Subject} {v : Verdict} {texts : List String}
    (hrun : rule.runner subject = .verdict v) (h : v.Shows texts) {text : String}
    (hc : rule.complaint? subject = some text) : breaks text = totalBreaks texts := by
  rw [Rule.complaint?, Rule.outcome, hrun] at hc
  cases hv : v.passed with
  | true => simp [RunnerEnd.outcome, hv] at hc
  | false =>
    simp only [RunnerEnd.outcome, hv, Bool.false_eq_true, if_false, Option.some.injEq] at hc
    exact hc ▸ h hv

theorem breaks_serviceVersion {subject : Subject} {text : String}
    (hc : serviceVersion.complaint? subject = some text) :
    breaks text = totalBreaks ((blamed subject.bundles).map Bundle.name) := by
  cases h : bundleProblems subject.bundles with
  | ok problems =>
    obtain ⟨hfind, hbreaks⟩ := bundleProblems_ok h
    refine breaks_of_shows (v := .check problems.isEmpty (String.intercalate "; " problems))
      (by simp [serviceVersion, judgeServiceVersions, h]) ?_ hc
    refine Verdict.shows_check fun _ => ?_
    rw [breaks_intercalate (by decide), hbreaks, blamed, hfind]
  | error e =>
    obtain ⟨b, hfind, hb⟩ := bundleProblems_error h
    have htext : e.message = text := by
      simpa [Rule.complaint?, Rule.outcome, serviceVersion, judgeServiceVersions, h,
        RunnerEnd.outcome] using hc
    rw [← htext, breaks_bundleError hb, blamed, hfind]
    rfl

/-- What a built-in rule says has the line breaks of the texts it does not quote, and no
others. -/
theorem breaks_complaint {rule : Rule} (hr : rule ∈ builtin) {subject : Subject} {text : String}
    (hc : rule.complaint? subject = some text) :
    breaks text = totalBreaks (unquoted subject rule.code) := by
  simp only [builtin, List.mem_cons, List.not_mem_nil, or_false] at hr
  rcases hr with rfl | rfl | rfl | rfl | rfl | rfl | rfl | rfl
  · exact breaks_of_shows rfl (shows_judgeDefaultChannel subject.addon) hc
  · exact breaks_of_shows rfl (shows_judgeLabel subject.addon) hc
  · exact breaks_of_shows rfl (shows_judgeOperatorName subject) hc
  · exact breaks_of_shows rfl (shows_judgeIcon subject.addon) hc
  · exact breaks_of_shows rfl (shows_judgeTestHarness subject.addon) hc
  · exact breaks_of_shows rfl (shows_judgeTargetNamespace subject.addon) hc
  · exact breaks_of_shows rfl (shows_judgeIndexImage subject.artifact) hc
  · exact breaks_serviceVersion hc

end Rules

end AddonLint
