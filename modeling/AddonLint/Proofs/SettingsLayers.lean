import AddonLint.Proofs.Blanks
import AddonLint.Proofs.ClosedRecords
import AddonLint.Proofs.Numerals
import AddonLint.Settings

/-!
# Settings are layers of values

A configuration file, the environment variables and every accepted step of overrides each lie as a
layer over the ones before. Whatever is loaded and overridden, each setting on its own is the last
value that a layer gives, or its default, and the two numbers stay positive. A step that would
leave a number at zero is refused as a whole.
-/
namespace AddonLint.Settings

/-! ## Layers -/

/-- The value of the last layer that gives one. -/
def lastGiven {α : Type} (field : Overrides → Option α) (layers : List Overrides) : Option α :=
  (layers.filterMap field).getLast?

/-- A layer hides the ones before it only where it gives a value. -/
theorem lastGiven_concat {α : Type} (field : Overrides → Option α) (layers : List Overrides)
    (o : Overrides) : lastGiven field (layers ++ [o]) = (field o).or (lastGiven field layers) := by
  rw [lastGiven, List.filterMap_append]
  cases h : field o with
  | none => simp [h, lastGiven]
  | some a => simp [h]

/-- Each setting is the last value that is given, or its default. -/
structure Shows (layers : List Overrides) (s : Settings) : Prop where
  bundleCache : s.bundleCache = lastGiven (·.bundleCache) layers
  extractTimeout : s.extractTimeout = (lastGiven (·.extractTimeout) layers).getD 120
  jobs : s.jobs = (lastGiven (·.jobs) layers).getD 1

theorem Shows.merge {layers : List Overrides} {s : Settings} (h : Shows layers s) (o : Overrides) :
    Shows (layers ++ [o]) (s.merge o) := by
  refine ⟨?_, ?_, ?_⟩
  · rw [lastGiven_concat, ← h.bundleCache, Settings.merge]
    cases o.bundleCache <;> rfl
  · rw [lastGiven_concat, Option.getD_or, ← h.extractTimeout]
    rfl
  · rw [lastGiven_concat, Option.getD_or, ← h.jobs]
    rfl

def IsValid (s : Settings) : Prop := 1 ≤ s.extractTimeout ∧ 1 ≤ s.jobs

theorem one_le_iff {n : UInt64} : 1 ≤ n ↔ n ≠ 0 := by
  rw [UInt64.le_iff_toNat_le, ne_eq, ← UInt64.toNat_inj]
  exact Nat.one_le_iff_ne_zero

/-- The check changes nothing: it lets settings pass or refuses them. -/
theorem check_eq_ok_iff {s s' : Settings} : s.check = .ok s' ↔ s' = s ∧ s.IsValid := by
  rw [check, IsValid, one_le_iff, one_le_iff]
  split
  · simp [*]
  · split
    · simp [*]
    · simp [*, eq_comm]

/-- The settings after a step: a step that is refused leaves them as they were. -/
def after (s : Settings) (o : Overrides) : Settings :=
  match s.override o with
  | .ok s' => s'
  | .error _ => s

def afterAll (s : Settings) (steps : List Overrides) : Settings := steps.foldl after s

def accepted (s : Settings) : List Overrides → List Overrides
  | [] => []
  | o :: rest =>
    match s.override o with
    | .ok s' => o :: accepted s' rest
    | .error _ => accepted s rest

/-- A step with a number that is zero gives nothing else either. -/
example : accepted default [⟨some "c", some 0, none⟩, ⟨none, none, some 4⟩] =
    [⟨none, none, some 4⟩] := rfl

theorem after_of_error {s : Settings} {o : Overrides} {e : SettingsError}
    (h : s.override o = .error e) : s.after o = s := by rw [after, h]

theorem IsValid.after {s : Settings} (h : s.IsValid) (o : Overrides) : (s.after o).IsValid := by
  cases hstep : s.override o with
  | ok s' =>
    obtain ⟨rfl, hvalid⟩ := check_eq_ok_iff.1 hstep
    rw [Settings.after, hstep]
    exact hvalid
  | error e =>
    rw [after_of_error hstep]
    exact h

/-- Settings never become invalid, however often they are overridden. -/
theorem IsValid.afterAll {s : Settings} (h : s.IsValid) (steps : List Overrides) :
    (s.afterAll steps).IsValid := by
  induction steps generalizing s with
  | nil => exact h
  | cons o rest ih => exact ih (h.after o)

/-- Refused steps leave no trace: the settings show the accepted ones. -/
theorem Shows.afterAll {layers : List Overrides} {s : Settings} (h : Shows layers s)
    (steps : List Overrides) : Shows (layers ++ s.accepted steps) (s.afterAll steps) := by
  induction steps generalizing s layers with
  | nil =>
    rw [accepted, List.append_nil]
    exact h
  | cons o rest ih =>
    rw [Settings.afterAll, List.foldl_cons, accepted]
    cases hstep : s.override o with
    | ok s' =>
      obtain ⟨rfl, -⟩ := check_eq_ok_iff.1 hstep
      have hrest := ih (h.merge o)
      rw [List.append_assoc] at hrest
      rw [Settings.after, hstep]
      exact hrest
    | error e =>
      rw [after_of_error hstep]
      exact ih h

/-! ## What is loaded -/

def configurationKeys : List String := ["bundle_cache", "extract_timeout_secs", "jobs"]

/-- The values that a configuration file gives, if one is named: none if it is blank, and otherwise
those of its only document, which has no unknown keys. -/
inductive FileGives (fs : FileSystem) : Option String → Overrides → Prop where
  | absent : FileGives fs none .empty
  | blank {path text : String} (read : fs.readText path = .ok text) (blank : Text.Blank text) :
    FileGives fs (some path) .empty
  | document {path text : String} {vals : Overrides.schema.Val} {document : Yaml.Document}
    (read : fs.readText path = .ok text) (filled : ¬Text.Blank text)
    (decoded : Overrides.schema.ofYaml text = .ok vals)
    (only : Yaml.Document.ofText text = [document])
    (known : document.KnownKeys configurationKeys document.root) :
    FileGives fs (some path) (.ofVals vals)

/-- The number that a variable gives: none if it is unset, and otherwise the one whose numeral is
left between the blanks. -/
inductive NumberGiven : Option String → Option UInt64 → Prop where
  | unset : NumberGiven none none
  | numeral {raw text : String} {n : UInt64} (trims : Text.Trims raw text)
    (numeral : Numeral.IsNumeral text n) : NumberGiven (some raw) (some n)

/-- The values that the environment variables give. A cache that is empty counts as unset. -/
structure VariablesGive (lookup : String → Option String) (o : Overrides) : Prop where
  bundleCache : ∀ cache, o.bundleCache = some cache ↔
    lookup "AMV_BUNDLE_CACHE" = some cache ∧ cache ≠ ""
  extractTimeout : NumberGiven (lookup "AMV_EXTRACT_TIMEOUT_SECS") o.extractTimeout
  jobs : NumberGiven (lookup "AMV_JOBS") o.jobs

namespace Overrides

theorem ofFile_eq_ok_iff {fs : FileSystem} {path : String} {o : Overrides} :
    ofFile fs path = .ok o ↔ FileGives fs (some path) o := by
  constructor
  · intro h
    rw [ofFile] at h
    split at h
    · cases h
    · rename_i text hread
      split at h
      · rename_i hblank
        cases h
        exact .blank hread (Text.trim_eq_empty_iff.1 hblank)
      · rename_i hfilled
        obtain ⟨vals, hvals, rfl⟩ := Fallible.map_eq_ok_iff.1 h
        have hdecoded := Fallible.mapError_eq_ok_iff.1 hvals
        obtain ⟨document, hdocument, hknown⟩ := Schema.exists_document_of_ofYaml hdecoded
        exact .document hread (fun hblank => hfilled (Text.trim_eq_empty_iff.2 hblank)) hdecoded
          hdocument hknown
  · intro h
    cases h with
    | blank hread hblank =>
      rw [ofFile, hread]
      exact if_pos (Text.trim_eq_empty_iff.2 hblank)
    | document hread hfilled hdecoded =>
      rw [ofFile, hread]
      dsimp only
      rw [if_neg fun hblank => hfilled (Text.trim_eq_empty_iff.1 hblank), hdecoded]
      rfl

def ofConfiguration (fs : FileSystem) : Option String → Except SettingsError Overrides
  | some path => ofFile fs path
  | none => .ok .empty

theorem ofConfiguration_eq_ok_iff {fs : FileSystem} {config : Option String} {o : Overrides} :
    ofConfiguration fs config = .ok o ↔ FileGives fs config o := by
  cases config with
  | some path => exact ofFile_eq_ok_iff
  | none =>
    constructor
    · rintro ⟨⟩
      exact .absent
    · rintro ⟨⟩
      rfl

theorem ofVariable_eq_ok_iff {lookup : String → Option String} {name : String}
    {n : Option UInt64} : ofVariable lookup name = .ok n ↔ NumberGiven (lookup name) n := by
  rw [ofVariable]
  cases lookup name with
  | none =>
    constructor
    · rintro ⟨⟩
      exact .unset
    · rintro ⟨⟩
      rfl
  | some raw =>
    dsimp only
    constructor
    · intro h
      split at h
      · rename_i hread
        cases h
        exact .numeral (Text.trims_trim raw) (Numeral.unsigned64?_eq_some_iff.1 hread)
      · cases h
    · rintro (_ | ⟨htrims, hnumeral⟩)
      rw [Text.trim_of_trims htrims, Numeral.unsigned64?_eq_some_iff.2 hnumeral]

theorem ofVariables_eq_ok_iff {lookup : String → Option String} {o : Overrides} :
    ofVariables lookup = .ok o ↔ VariablesGive lookup o := by
  have hcache (cache : String) : (lookup cacheVariable).filter (· ≠ "") = some cache ↔
      lookup "AMV_BUNDLE_CACHE" = some cache ∧ cache ≠ "" := by
    rw [Option.filter_eq_some_iff, decide_eq_true_eq]
    rfl
  simp only [ofVariables, Fallible.bind_eq_ok_iff, ofVariable_eq_ok_iff]
  constructor
  · rintro ⟨extractTimeout, htimeout, jobs, hjobs, h⟩
    cases h
    exact ⟨hcache, htimeout, hjobs⟩
  · rintro ⟨hgiven, htimeout, hjobs⟩
    refine ⟨o.extractTimeout, htimeout, o.jobs, hjobs, ?_⟩
    have heq : (lookup cacheVariable).filter (· ≠ "") = o.bundleCache :=
      Option.ext fun cache => (hcache cache).trans (hgiven cache).symm
    rw [heq]
    rfl

end Overrides

theorem load_eq (fs : FileSystem) (config : Option String) (lookup : String → Option String) :
    load fs config lookup = Overrides.ofConfiguration fs config >>= fun file =>
      Overrides.ofVariables lookup >>= fun environment =>
        ((default.merge file).merge environment).check := by
  cases config <;> rfl

/-- Variables lie over the configuration file, and the file over the defaults. -/
theorem load_eq_ok_iff {fs : FileSystem} {config : Option String}
    {lookup : String → Option String} {s : Settings} :
    load fs config lookup = .ok s ↔ ∃ file environment, FileGives fs config file ∧
      VariablesGive lookup environment ∧ s = (default.merge file).merge environment ∧
      s.IsValid := by
  simp only [load_eq, Fallible.bind_eq_ok_iff, Overrides.ofConfiguration_eq_ok_iff,
    Overrides.ofVariables_eq_ok_iff, check_eq_ok_iff]
  constructor
  · rintro ⟨file, hfile, environment, henvironment, rfl, hvalid⟩
    exact ⟨file, environment, hfile, henvironment, rfl, hvalid⟩
  · rintro ⟨file, environment, hfile, henvironment, rfl, hvalid⟩
    exact ⟨file, hfile, environment, henvironment, rfl, hvalid⟩

end AddonLint.Settings
