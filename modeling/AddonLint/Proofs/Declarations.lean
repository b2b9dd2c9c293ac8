import AddonLint.Proofs.Blanks
import AddonLint.Proofs.Selection

/-!
# Requests that leave the version to the metadata

The declared version is read like one that an operator asks for, once the blanks
around it are gone, and selects the same artifact. The image sets are not looked
at before that, so a declaration that cannot be read is reported whatever else is
wrong. The metadata have no say in an explicit request.
-/
namespace AddonLint.Resolution

/-- The field holds more than blanks, and this text between them. -/
def Declares (field : Option String) (text : String) : Prop :=
  ∃ raw, field = some raw ∧ Text.Trims raw text ∧ text ≠ ""

/-- The field is absent or blank. -/
def Undeclared (field : Option String) : Prop := ∀ raw, field = some raw → Text.Blank raw

theorem declared?_eq_some_iff {field : Option String} {text : String} :
    declared? field = some text ↔ Declares field text := by
  cases field with
  | none => simp [declared?, Declares]
  | some raw =>
    simp only [declared?, Declares, Option.map_some, Option.filter_eq_some_iff, Option.some.injEq,
      decide_eq_true_eq, exists_eq_left', Text.trim_eq_iff]

theorem declared?_eq_none_iff {field : Option String} :
    declared? field = none ↔ Undeclared field := by
  cases field with
  | none => simp [declared?, Undeclared]
  | some raw =>
    simp only [declared?, Undeclared, Option.map_some, Option.filter_eq_none_iff,
      Option.some.injEq, forall_eq', decide_eq_true_eq, not_not, Text.trim_eq_empty_iff]

theorem declares_or_undeclared (field : Option String) :
    (∃ text, Declares field text) ∨ Undeclared field := by
  cases h : declared? field with
  | some text => exact Or.inl ⟨text, declared?_eq_some_iff.1 h⟩
  | none => exact Or.inr (declared?_eq_none_iff.1 h)

theorem Declares.unique {field : Option String} {text text' : String} (h : Declares field text)
    (h' : Declares field text') : text = text' := by
  have hread := declared?_eq_some_iff.2 h
  rw [declared?_eq_some_iff.2 h'] at hread
  exact (Option.some.inj hread).symm

theorem Declares.ne_empty {field : Option String} {text : String} (h : Declares field text) :
    text ≠ "" := by
  obtain ⟨-, -, -, hne⟩ := h
  exact hne

theorem Undeclared.not_declares {field : Option String} (h : Undeclared field) (text : String) :
    ¬ Declares field text := by
  intro hdeclares
  have hread := declared?_eq_some_iff.2 hdeclares
  rw [declared?_eq_none_iff.2 h] at hread
  cases hread

/-- A text that asks for something is never read as a request without a version. -/
theorem ne_declared_of_parse {text : String} (hne : text ≠ "") {request : VersionRequest}
    (h : VersionRequest.parse text = .ok request) : request ≠ .declared := by
  rintro rfl
  rw [VersionRequest.parse, if_neg hne] at h
  split at h
  · cases h
  · split at h <;> cases h

/-- The requests that name what they want are those of the targets. -/
theorem exists_target {request : VersionRequest} (h : request ≠ .declared) :
    ∃ target : Target, request = target.request := by
  cases request with
  | declared => exact absurd rfl h
  | latest => exact ⟨.latest, rfl⟩
  | exact v => exact ⟨.exact v, rfl⟩

/-- A request for a target looks at the image sets alone. -/
theorem select_request (m : Manifest) (target : Target) :
    m.select target.request = ofTarget m target := by
  cases target <;> rfl

theorem declaredTarget_of_parse {text : String} {target : Target}
    (h : VersionRequest.parse text = .ok target.request) : declaredTarget text = .ok target := by
  cases target <;> simp only [declaredTarget, h, Target.request]

theorem select_of_declares {m : Manifest} {text : String}
    (h : Declares m.metadata.addonImageSetVersion text) :
    m.select .declared = (declaredTarget text).bind (ofTarget m) := by
  rw [Manifest.select, ofDeclaration, declared?_eq_some_iff.2 h]
  rfl

/-- A declared version is selected as if it had been asked for. -/
theorem select_of_parse {m : Manifest} {text : String} {request : VersionRequest}
    (h : Declares m.metadata.addonImageSetVersion text)
    (hparse : VersionRequest.parse text = .ok request) :
    m.select .declared = m.select request := by
  obtain ⟨target, rfl⟩ := exists_target (ne_declared_of_parse h.ne_empty hparse)
  rw [select_of_declares h, declaredTarget_of_parse hparse, select_request]
  rfl

/-- A declared text that is no version is an error, even with a fixed index image beside it. -/
theorem select_of_parse_error {m : Manifest} {text : String} {e : ConfigError}
    (h : Declares m.metadata.addonImageSetVersion text)
    (hparse : VersionRequest.parse text = .error e) :
    m.select .declared = .error (.invalidDeclaredVersion text) := by
  have htarget : declaredTarget text = .error (.invalidDeclaredVersion text) := by
    simp only [declaredTarget, hparse]
  rw [select_of_declares h, htarget]
  rfl

/-- Only without a declared version does the fixed index image count. -/
theorem select_of_undeclared {m : Manifest} (h : Undeclared m.metadata.addonImageSetVersion) :
    m.select .declared =
      match declared? m.metadata.indexImage with
      | some image => .ok (.staticIndexImage image)
      | none => .error (.noDefaultVersion m.environment) := by
  have hfield := declared?_eq_none_iff.2 h
  cases himage : declared? m.metadata.indexImage with
  | none => simp only [Manifest.select, ofDeclaration, hfield, himage]
  | some image => simp only [Manifest.select, ofDeclaration, hfield, himage]

/-- The search for a target sees nothing of the metadata. -/
theorem ofTarget_metadata (m : Manifest) (metadata : AddonMetadata) (target : Target) :
    ofTarget { m with metadata } target = ofTarget m target := rfl

/-- What a request without a version comes to. A declared version stands for the request
that it reads as, and is named if it reads as none; without one the index image of the
metadata is taken, if there is any, whatever the image sets are. An explicit request
comes to the same under all metadata. -/
theorem select_declared (m : Manifest) :
    ((∃ text, Declares m.metadata.addonImageSetVersion text) ∨
      Undeclared m.metadata.addonImageSetVersion) ∧
    (∀ text, Declares m.metadata.addonImageSetVersion text →
      (∀ request, VersionRequest.parse text = .ok request →
        request ≠ .declared ∧ m.select .declared = m.select request) ∧
      (∀ e, VersionRequest.parse text = .error e →
        m.select .declared = .error (.invalidDeclaredVersion text))) ∧
    (Undeclared m.metadata.addonImageSetVersion →
      (∀ image, Declares m.metadata.indexImage image →
        m.select .declared = .ok (.staticIndexImage image)) ∧
      (Undeclared m.metadata.indexImage →
        m.select .declared = .error (.noDefaultVersion m.environment)) ∧
      ∀ imageSets, Manifest.select { m with imageSets } .declared = m.select .declared) ∧
    (∀ metadata request, request ≠ .declared →
      Manifest.select { m with metadata } request = m.select request) := by
  refine ⟨declares_or_undeclared _, ?_, ?_, ?_⟩
  · intro text h
    have hne : text ≠ "" := by
      obtain ⟨_, _, _, hne⟩ := h
      exact hne
    exact ⟨fun request hparse => ⟨ne_declared_of_parse hne hparse, select_of_parse h hparse⟩,
      fun e hparse => select_of_parse_error h hparse⟩
  · intro h
    refine ⟨fun image himage => ?_, fun hnone => ?_, fun imageSets => ?_⟩
    · rw [select_of_undeclared h, declared?_eq_some_iff.2 himage]
    · rw [select_of_undeclared h, declared?_eq_none_iff.2 hnone]
    · have h' : Undeclared (Manifest.metadata { m with imageSets }).addonImageSetVersion := h
      rw [select_of_undeclared h, select_of_undeclared h']
  · intro metadata request h
    obtain ⟨target, rfl⟩ := exists_target h
    rw [select_request, select_request, ofTarget_metadata]

/-- An addon that declares its latest version between blanks of several kinds. -/
def padded : Manifest where
  environment := .stage
  metadata := { AddonMetadata.ofNames "a" "a" with
    addonImageSetVersion := some "\u3000\tlatest\u2028 ", indexImage := some "i" }
  imageSets := []

theorem select_declared_padded :
    Declares padded.metadata.addonImageSetVersion "latest" ∧
      VersionRequest.parse "latest" = .ok .latest ∧
      padded.select .declared = padded.select .latest := by
  have hdeclares : Declares padded.metadata.addonImageSetVersion "latest" :=
    declared?_eq_some_iff.1 (by decide +kernel)
  obtain ⟨hread, -⟩ := (select_declared padded).2.1 "latest" hdeclares
  exact ⟨hdeclares, rfl, (hread .latest rfl).2⟩

end AddonLint.Resolution
