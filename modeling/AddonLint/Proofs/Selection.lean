import AddonLint.Proofs.Versions
import AddonLint.Resolution

/-!
# Explicit requests pick nothing arbitrarily

A request for the latest or for an exact version is answered by counting the
image sets at one target version. `Outcome` lists the five ways this can end, and
selection ends in the one that applies, never in another.
-/
namespace AddonLint.Resolution

/-- The request that asks for a target without looking at the metadata. -/
def Target.request : Target → VersionRequest
  | .latest => .latest
  | .exact v => .exact v

/-- The image sets at a version, in the order of the list and with repetitions. -/
def carriers (sets : List ImageSet) (v : SemVer) : List ImageSet :=
  sets.filter fun s => s.version? = some v

def encoded (sets : List ImageSet) : List SemVer := sets.filterMap ImageSet.version?

/-- The version a target means: itself, or the numerically greatest one encoded. -/
def Target.Means (sets : List ImageSet) : Target → SemVer → Prop
  | .latest, v => SemVer.IsGreatest (encoded sets) v
  | .exact w, v => v = w

/-- Every name encodes a version. -/
def WellNamed (sets : List ImageSet) : Prop := ∀ s ∈ sets, s.version?.isSome = true

/-- The name belongs to the first image set whose name encodes no version. -/
def FirstMalformed (sets : List ImageSet) (name : String) : Prop :=
  ∃ before s after, sets = before ++ s :: after ∧ WellNamed before ∧ s.version? = none ∧
    s.name = name

/-- How the search for a target can end. -/
inductive Outcome (m : Manifest) (t : Target) : Except ResolutionError Artifact → Prop
  | malformed {name : String} : FirstMalformed m.imageSets name →
      Outcome m t (.error (.malformedImageSetName name))
  | found {v : SemVer} {s : ImageSet} : WellNamed m.imageSets → t.Means m.imageSets v →
      carriers m.imageSets v = [s] → Outcome m t (.ok (.imageSet s))
  | ambiguous {v : SemVer} : WellNamed m.imageSets → t.Means m.imageSets v →
      2 ≤ (carriers m.imageSets v).length →
      Outcome m t (.error (.ambiguous m.environment v.text
        ((carriers m.imageSets v).map (·.name))))
  | notFound {v : SemVer} : WellNamed m.imageSets → t = .exact v →
      carriers m.imageSets v = [] → Outcome m t (.error (.notFound m.environment v.text))
  | noImageSets : t = .latest → m.imageSets = [] →
      Outcome m t (.error (.noImageSets m.environment))

theorem isPlain_of_version? {s : ImageSet} {v : SemVer} (h : s.version? = some v) :
    v.isPlain = true := by
  unfold ImageSet.version? ImageSetName.version? at h
  split at h
  · split at h
    · cases h
    · exact SemVer.isPlain_of_parsePlain? h
  · cases h

theorem isPlain_of_mem_encoded {sets : List ImageSet} {v : SemVer} (h : v ∈ encoded sets) :
    v.isPlain = true := by
  obtain ⟨s, -, hs⟩ := List.mem_filterMap.1 h
  exact isPlain_of_version? hs

/-- A target means one version at most. -/
theorem Target.Means.unique {sets : List ImageSet} {t : Target} {v w : SemVer}
    (hv : t.Means sets v) (hw : t.Means sets w) : v = w := by
  cases t with
  | latest => exact SemVer.IsGreatest.unique (fun _ h => isPlain_of_mem_encoded h) hv hw
  | exact u => exact Eq.trans hv (Eq.symm hw)

theorem carriers_eq_nil_iff {sets : List ImageSet} {v : SemVer} :
    carriers sets v = [] ↔ v ∉ encoded sets := by
  simp only [carriers, encoded, List.filter_eq_nil_iff, List.mem_filterMap, decide_eq_true_eq,
    not_exists, not_and]

/-! ### Reading the versions off the names -/

/-- The image sets next to their versions; those without a version are left out. -/
def withVersions (sets : List ImageSet) : List (SemVer × ImageSet) :=
  sets.filterMap fun s => s.version?.map fun v => (v, s)

theorem versioned_of_wellNamed {sets : List ImageSet} (h : WellNamed sets) :
    versioned sets = .ok (withVersions sets) := by
  induction sets with
  | nil => rfl
  | cons s rest ih =>
    obtain ⟨v, hv⟩ := Option.isSome_iff_exists.1 (h s List.mem_cons_self)
    have hrest := ih fun x hx => h x (List.mem_cons_of_mem s hx)
    simp [versioned, withVersions, hv, hrest, Except.map]

theorem versioned_of_firstMalformed {sets : List ImageSet} {name : String}
    (h : FirstMalformed sets name) :
    versioned sets = .error (.malformedImageSetName name) := by
  obtain ⟨before, s, after, rfl, hb, hs, rfl⟩ := h
  induction before with
  | nil => simp [versioned, hs]
  | cons b before ih =>
    obtain ⟨v, hv⟩ := Option.isSome_iff_exists.1 (hb b List.mem_cons_self)
    have hrest := ih fun x hx => hb x (List.mem_cons_of_mem b hx)
    simp [versioned, hv, hrest, Except.map]

theorem wellNamed_or_firstMalformed (sets : List ImageSet) :
    WellNamed sets ∨ ∃ name, FirstMalformed sets name := by
  induction sets with
  | nil => exact Or.inl nofun
  | cons s rest ih =>
    cases hs : s.version? with
    | none => exact Or.inr ⟨s.name, [], s, rest, rfl, nofun, hs, rfl⟩
    | some v =>
      have hsome : s.version?.isSome = true := by rw [hs]; rfl
      rcases ih with hrest | ⟨name, before, x, after, rfl, hb, hx, hname⟩
      · exact Or.inl fun x hx => (List.mem_cons.1 hx).elim (fun h => h ▸ hsome) (hrest x)
      · refine Or.inr ⟨name, s :: before, x, after, rfl, ?_, hx, hname⟩
        exact fun y hy => (List.mem_cons.1 hy).elim (fun h => h ▸ hsome) (hb y)

theorem map_fst_withVersions (sets : List ImageSet) :
    (withVersions sets).map (·.1) = encoded sets := by
  simp only [withVersions, encoded, List.map_filterMap]
  congr 1
  funext s
  cases s.version? <;> rfl

theorem matches_withVersions (sets : List ImageSet) (v : SemVer) :
    ((withVersions sets).filter fun s => s.1 = v).map (·.2) = carriers sets v := by
  induction sets with
  | nil => rfl
  | cons s rest ih =>
    unfold withVersions carriers at ih ⊢
    cases hs : s.version? with
    | none => simp [hs, ih]
    | some w => by_cases hw : w = v <;> simp [hs, hw, ih]

/-! ### The search -/

/-- How many image sets are at a version decides between success and the two errors. -/
theorem unique_withVersions (environment : Environment) (sets : List ImageSet) (v : SemVer) :
    unique environment v (withVersions sets) =
      match carriers sets v with
      | [] => .error (.notFound environment v.text)
      | [set] => .ok (.imageSet set)
      | many => .error (.ambiguous environment v.text (many.map (·.name))) := by
  match h : carriers sets v with
  | [] => simp only [unique, matches_withVersions, h]
  | [s] => simp only [unique, matches_withVersions, h]
  | s :: s' :: more => simp only [unique, matches_withVersions, h]

/-- One name without a version spoils every selection among image sets. -/
theorem select_of_firstMalformed {m : Manifest} {t : Target} {name : String}
    (h : FirstMalformed m.imageSets name) :
    m.select t.request = .error (.malformedImageSetName name) := by
  cases t <;>
    simp only [Target.request, Manifest.select, ofTarget, versioned_of_firstMalformed h,
      bind, Except.bind]

/-- Once the version is known, the image sets at it decide. -/
theorem select_of_means {m : Manifest} {t : Target} {v : SemVer} (hw : WellNamed m.imageSets)
    (hv : t.Means m.imageSets v) :
    m.select t.request = unique m.environment v (withVersions m.imageSets) := by
  cases t with
  | exact u =>
    obtain rfl : v = u := hv
    simp only [Target.request, Manifest.select, ofTarget, versioned_of_wellNamed hw, bind,
      Except.bind]
  | latest =>
    have hne : SemVer.greatest? (encoded m.imageSets) ≠ none := fun h => by
      have hnil := SemVer.greatest?_eq_none_iff.1 h
      have hmem := hv.1
      rw [hnil] at hmem
      cases hmem
    obtain ⟨w, hgreatest⟩ := Option.ne_none_iff_exists'.1 hne
    have hw' : Target.latest.Means m.imageSets w := SemVer.isGreatest_of_greatest? hgreatest
    have hwv : w = v := hw'.unique hv
    simp only [Target.request, Manifest.select, ofTarget, versioned_of_wellNamed hw, bind,
      Except.bind, map_fst_withVersions, hgreatest, hwv]

theorem select_latest_of_nil {m : Manifest} (h : m.imageSets = []) :
    m.select Target.latest.request = .error (.noImageSets m.environment) := by
  simp only [Target.request, Manifest.select, ofTarget, h]
  rfl

theorem Target.exists_means {sets : List ImageSet} (hw : WellNamed sets) (hne : sets ≠ []) :
    ∃ v, Target.latest.Means sets v := by
  cases hg : SemVer.greatest? (encoded sets) with
  | some v => exact ⟨v, SemVer.isGreatest_of_greatest? hg⟩
  | none =>
    obtain ⟨s, hs⟩ := List.exists_mem_of_ne_nil sets hne
    obtain ⟨v, hv⟩ := Option.isSome_iff_exists.1 (hw s hs)
    have hmem : v ∈ encoded sets := List.mem_filterMap.2 ⟨s, hs, hv⟩
    rw [SemVer.greatest?_eq_none_iff.1 hg] at hmem
    cases hmem

/-- Every search ends in one of the ways of `Outcome`. -/
theorem outcome_select (m : Manifest) (t : Target) : Outcome m t (m.select t.request) := by
  rcases wellNamed_or_firstMalformed m.imageSets with hw | ⟨name, hname⟩
  · by_cases hempty : t = .latest ∧ m.imageSets = []
    · obtain ⟨rfl, hnil⟩ := hempty
      rw [select_latest_of_nil hnil]
      exact .noImageSets rfl hnil
    · obtain ⟨v, hv⟩ : ∃ v, t.Means m.imageSets v := by
        cases t with
        | exact v => exact ⟨v, rfl⟩
        | latest => exact Target.exists_means hw fun h => hempty ⟨rfl, h⟩
      rw [select_of_means hw hv, unique_withVersions]
      match hc : carriers m.imageSets v with
      | [s] => exact .found hw hv hc
      | s :: s' :: more =>
        have h := Outcome.ambiguous (m := m) (t := t) hw hv (by rw [hc]; simp)
        rwa [hc] at h
      | [] =>
        cases t with
        | exact u =>
          obtain rfl : v = u := hv
          exact .notFound hw rfl hc
        | latest => exact absurd hv.1 (carriers_eq_nil_iff.1 hc)
  · rw [select_of_firstMalformed hname]
    exact .malformed hname

/-- The way of `Outcome` that applies is the way the search ends. -/
theorem select_of_outcome {m : Manifest} {t : Target} {result : Except ResolutionError Artifact}
    (h : Outcome m t result) : m.select t.request = result := by
  cases h with
  | malformed h => exact select_of_firstMalformed h
  | found hw hv hc => rw [select_of_means hw hv, unique_withVersions, hc]
  | notFound hw ht hc =>
    subst ht
    rw [select_of_means (t := .exact _) hw rfl, unique_withVersions, hc]
  | noImageSets ht hnil =>
    subst ht
    exact select_latest_of_nil hnil
  | @ambiguous v hw hv hlen =>
    rw [select_of_means hw hv, unique_withVersions]
    match hc : carriers m.imageSets v with
    | [] => rw [hc] at hlen; simp at hlen
    | [s] => rw [hc] at hlen; simp at hlen
    | s :: s' :: more => rfl

/-- The description of outcomes is complete, and no two of them apply at once. -/
theorem select_eq_iff {m : Manifest} {t : Target} {result : Except ResolutionError Artifact} :
    m.select t.request = result ↔ Outcome m t result :=
  ⟨fun h => h ▸ outcome_select m t, select_of_outcome⟩

theorem isPlain_of_carriers {sets : List ImageSet} {v : SemVer} {s : ImageSet}
    (h : carriers sets v = [s]) : v.isPlain = true := by
  have hs : s ∈ carriers sets v := h ▸ List.mem_singleton_self s
  exact isPlain_of_version? (of_decide_eq_true (List.mem_filter.1 hs).2)

/-- What an explicit request comes to. A malformed name decides before all else; then
the image sets at the one version that the target means are counted. A version with a
pre-release or build part is never found, and the metadata is never blamed. -/
theorem select_target (m : Manifest) (t : Target) :
    (∀ name, m.select t.request = .error (.malformedImageSetName name) ↔
      FirstMalformed m.imageSets name) ∧
    (∀ artifact, m.select t.request = .ok artifact ↔
      WellNamed m.imageSets ∧ ∃ v s, t.Means m.imageSets v ∧ carriers m.imageSets v = [s] ∧
        artifact = .imageSet s) ∧
    (∀ environment version names,
      m.select t.request = .error (.ambiguous environment version names) ↔
        WellNamed m.imageSets ∧ environment = m.environment ∧
          ∃ v, t.Means m.imageSets v ∧ 2 ≤ (carriers m.imageSets v).length ∧
            version = v.text ∧ names = (carriers m.imageSets v).map (·.name)) ∧
    (∀ environment version, m.select t.request = .error (.notFound environment version) ↔
      WellNamed m.imageSets ∧ environment = m.environment ∧
        ∃ v, t = .exact v ∧ carriers m.imageSets v = [] ∧ version = v.text) ∧
    (∀ environment, m.select t.request = .error (.noImageSets environment) ↔
      environment = m.environment ∧ t = .latest ∧ m.imageSets = []) ∧
    (∀ environment, m.select t.request ≠ .error (.noDefaultVersion environment)) ∧
    (∀ value, m.select t.request ≠ .error (.invalidDeclaredVersion value)) ∧
    (∀ v w, t.Means m.imageSets v ∧ t.Means m.imageSets w → v = w) ∧
    (∀ v artifact, t = .exact v ∧ m.select t.request = .ok artifact → v.isPlain = true) := by
  refine ⟨fun name => ?_, fun artifact => ?_, fun environment version names => ?_,
    fun environment version => ?_, fun environment => ?_, fun environment h => ?_,
    fun value h => ?_, fun v w h => h.1.unique h.2, fun v artifact h => ?_⟩
  · rw [select_eq_iff]
    exact ⟨fun h => by cases h; assumption, .malformed⟩
  · rw [select_eq_iff]
    constructor
    · intro h
      cases h with
      | found hw hv hc => exact ⟨hw, _, _, hv, hc, rfl⟩
    · rintro ⟨hw, v, s, hv, hc, rfl⟩
      exact .found hw hv hc
  · rw [select_eq_iff]
    constructor
    · intro h
      cases h with
      | ambiguous hw hv hlen => exact ⟨hw, rfl, _, hv, hlen, rfl, rfl⟩
    · rintro ⟨hw, rfl, v, hv, hlen, rfl, rfl⟩
      exact .ambiguous hw hv hlen
  · rw [select_eq_iff]
    constructor
    · intro h
      cases h with
      | notFound hw ht hc => exact ⟨hw, rfl, _, ht, hc, rfl⟩
    · rintro ⟨hw, rfl, v, ht, hc, rfl⟩
      exact .notFound hw ht hc
  · rw [select_eq_iff]
    constructor
    · intro h
      cases h with
      | noImageSets ht hnil => exact ⟨rfl, ht, hnil⟩
    · rintro ⟨rfl, ht, hnil⟩
      exact .noImageSets ht hnil
  · cases select_eq_iff.1 h
  · cases select_eq_iff.1 h
  · obtain ⟨rfl, hok⟩ := h
    cases select_eq_iff.1 hok with
    | found hw hv hc =>
      obtain rfl := hv
      exact isPlain_of_carriers hc

end AddonLint.Resolution
