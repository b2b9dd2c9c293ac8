import AddonLint.Proofs.Declarations

/-!
# Image sets in another order, and one image set more

The order of the image sets does not matter for what is selected, only for the order in which
ambiguous ones are named. A further image set does not matter for an exact version that is not its
own, nor for the latest one if a greater version is there already; if its version is the greatest,
then it is the latest one, whatever was there before.
-/
namespace AddonLint.Resolution

/-- Two answers that are the same, except that ambiguous image sets may be named in another
order. -/
inductive SameUpToOrder : Except ResolutionError Artifact → Except ResolutionError Artifact → Prop
  | same (result : Except ResolutionError Artifact) : SameUpToOrder result result
  | ambiguous (environment : Environment) (version : String) {names names' : List String} :
      names.Perm names' → SameUpToOrder (.error (.ambiguous environment version names))
        (.error (.ambiguous environment version names'))

/-- One list is the other one with an image set put in somewhere. -/
def Inserts (set : ImageSet) (sets sets' : List ImageSet) : Prop :=
  ∃ before after, sets = before ++ after ∧ sets' = before ++ set :: after

/-! ### Another order -/

section Reordered

variable {sets sets' : List ImageSet}

theorem encoded_perm (h : sets.Perm sets') : (encoded sets).Perm (encoded sets') := h.filterMap _

theorem carriers_perm (h : sets.Perm sets') (v : SemVer) :
    (carriers sets v).Perm (carriers sets' v) := h.filter _

theorem WellNamed.perm (hw : WellNamed sets) (h : sets.Perm sets') : WellNamed sets' :=
  fun s hs => hw s (h.mem_iff.2 hs)

/-- The version that a target means does not depend on the order of the image sets. -/
theorem Target.Means.perm {t : Target} {v : SemVer} (hv : t.Means sets v) (h : sets.Perm sets') :
    t.Means sets' v := by
  cases t with
  | exact w => exact hv
  | latest =>
    obtain ⟨hmem, hmax⟩ := hv
    exact ⟨(encoded_perm h).mem_iff.1 hmem, fun w hw => hmax w ((encoded_perm h).mem_iff.2 hw)⟩

theorem WellNamed.not_firstMalformed {name : String} (hw : WellNamed sets) :
    ¬ FirstMalformed sets name := by
  rintro ⟨before, s, after, rfl, -, hs, -⟩
  have hsome := hw s (List.mem_append_right before List.mem_cons_self)
  rw [hs] at hsome
  exact Bool.false_ne_true hsome

theorem sameUpToOrder_of_outcome {m m' : Manifest} {t : Target}
    {result : Except ResolutionError Artifact} (hw : WellNamed m.imageSets)
    (henvironment : m'.environment = m.environment) (h : m.imageSets.Perm m'.imageSets)
    (houtcome : Outcome m t result) : SameUpToOrder result (m'.select t.request) := by
  have hw' := hw.perm h
  cases houtcome with
  | malformed hname => exact absurd hname hw.not_firstMalformed
  | @found v set _ hv hc =>
    have hc' : carriers m'.imageSets v = [set] :=
      List.perm_singleton.1 (hc ▸ (carriers_perm h v).symm)
    rw [select_of_outcome (.found hw' (hv.perm h) hc')]
    exact .same _
  | @ambiguous v _ hv hlength =>
    have hcarriers := carriers_perm h v
    have hlength' : 2 ≤ (carriers m'.imageSets v).length := hcarriers.length_eq ▸ hlength
    rw [select_of_outcome (.ambiguous hw' (hv.perm h) hlength'), henvironment]
    exact .ambiguous _ _ (hcarriers.map _)
  | @notFound v _ ht hc =>
    have hc' : carriers m'.imageSets v = [] := List.perm_nil.1 (hc ▸ (carriers_perm h v).symm)
    rw [select_of_outcome (.notFound hw' ht hc'), henvironment]
    exact .same _
  | noImageSets ht hnil =>
    have hnil' : m'.imageSets = [] := List.perm_nil.1 (hnil ▸ h.symm)
    rw [select_of_outcome (.noImageSets ht hnil'), henvironment]
    exact .same _

end Reordered

/-- Rearranged image sets change at most the order of the names in an error. -/
theorem sameUpToOrder_select {m : Manifest} (m' : Manifest) (hw : WellNamed m.imageSets)
    (henvironment : m'.environment = m.environment) (hmetadata : m'.metadata = m.metadata)
    (h : m.imageSets.Perm m'.imageSets) (request : VersionRequest) :
    SameUpToOrder (m.select request) (m'.select request) := by
  have hexplicit : ∀ request, request ≠ .declared →
      SameUpToOrder (m.select request) (m'.select request) := by
    intro request hrequest
    obtain ⟨t, rfl⟩ := exists_target hrequest
    exact sameUpToOrder_of_outcome hw henvironment h (outcome_select m t)
  by_cases hrequest : request = .declared
  · subst hrequest
    rcases declares_or_undeclared m.metadata.addonImageSetVersion with ⟨text, htext⟩ | hnone
    · have htext' : Declares m'.metadata.addonImageSetVersion text := by rwa [hmetadata]
      cases hparse : VersionRequest.parse text with
      | error e =>
        rw [select_of_parse_error htext hparse, select_of_parse_error htext' hparse]
        exact .same _
      | ok read =>
        rw [select_of_parse htext hparse, select_of_parse htext' hparse]
        exact hexplicit read (ne_declared_of_parse htext.ne_empty hparse)
    · have hnone' : Undeclared m'.metadata.addonImageSetVersion := by rwa [hmetadata]
      rw [select_of_undeclared hnone, select_of_undeclared hnone', hmetadata, henvironment]
      exact .same _
  · exact hexplicit request hrequest

/-! ### One image set more -/

section Inserted

variable {set : ImageSet} {sets sets' : List ImageSet} {u v : SemVer}

theorem Inserts.wellNamed (h : Inserts set sets sets') (hw : WellNamed sets)
    (hu : set.version? = some u) : WellNamed sets' := by
  obtain ⟨before, after, rfl, rfl⟩ := h
  refine List.forall_mem_append.2 ⟨fun s hs => hw s (List.mem_append_left _ hs),
    List.forall_mem_cons.2 ⟨?_, fun s hs => hw s (List.mem_append_right _ hs)⟩⟩
  rw [hu]
  rfl

theorem Inserts.mem_encoded_iff (h : Inserts set sets sets') (hu : set.version? = some u)
    {w : SemVer} : w ∈ encoded sets' ↔ w = u ∨ w ∈ encoded sets := by
  obtain ⟨before, after, rfl, rfl⟩ := h
  simp only [encoded, List.filterMap_append, List.filterMap_cons_some hu, List.mem_append,
    List.mem_cons]
  exact or_left_comm

theorem Inserts.carriers_of_ne (h : Inserts set sets sets') (hu : set.version? = some u)
    (hne : u ≠ v) : carriers sets' v = carriers sets v := by
  obtain ⟨before, after, rfl, rfl⟩ := h
  have hset : set.version? ≠ some v := by
    rw [hu]
    exact fun h => hne (Option.some.inj h)
  simp [carriers, hset]

theorem Inserts.carriers_of_not_mem (h : Inserts set sets sets') (hu : set.version? = some u)
    (hnew : u ∉ encoded sets) : carriers sets' u = [set] := by
  have hnil := carriers_eq_nil_iff.2 hnew
  obtain ⟨before, after, rfl, rfl⟩ := h
  rw [carriers, List.filter_append, List.append_eq_nil_iff] at hnil
  obtain ⟨hbefore, hafter⟩ := hnil
  simp only [carriers, List.filter_append, hbefore, List.filter_cons, hu, decide_true, if_true,
    hafter, List.nil_append]

/-- Nothing changes for a version that is not that of the image set, as long as the target still
means it. -/
theorem select_of_inserts {m : Manifest} (m' : Manifest) (hw : WellNamed m.imageSets)
    (henvironment : m'.environment = m.environment) (h : Inserts set m.imageSets m'.imageSets)
    (hu : set.version? = some u) (hne : u ≠ v) {t : Target} (hv : t.Means m.imageSets v)
    (hv' : t.Means m'.imageSets v) : m'.select t.request = m.select t.request := by
  rw [select_of_means hw hv, select_of_means (h.wellNamed hw hu) hv', unique_withVersions,
    unique_withVersions, h.carriers_of_ne hu hne, henvironment]

/-- A lesser version that is put in leaves the latest one. -/
theorem Inserts.means_latest_of_lt (h : Inserts set sets sets') (hu : set.version? = some u)
    (hv : Target.latest.Means sets v) (hlt : u.numbers < v.numbers) :
    Target.latest.Means sets' v := by
  obtain ⟨hmem, hmax⟩ := hv
  refine ⟨(h.mem_encoded_iff hu).2 (.inr hmem), fun w hw => ?_⟩
  rcases (h.mem_encoded_iff hu).1 hw with rfl | hw
  · exact hlt.le
  · exact hmax w hw

theorem Inserts.means_latest_of_gt (h : Inserts set sets sets') (hu : set.version? = some u)
    (hgt : ∀ w ∈ encoded sets, w.numbers < u.numbers) : Target.latest.Means sets' u := by
  refine ⟨(h.mem_encoded_iff hu).2 (.inl rfl), fun w hw => ?_⟩
  rcases (h.mem_encoded_iff hu).1 hw with rfl | hw
  · exact le_rfl
  · exact (hgt w hw).le

/-- An image set whose version is above all others is the latest one. -/
theorem select_latest_of_gt {m m' : Manifest} (hw : WellNamed m.imageSets)
    (h : Inserts set m.imageSets m'.imageSets) (hu : set.version? = some u)
    (hgt : ∀ w ∈ encoded m.imageSets, w.numbers < u.numbers) :
    m'.select .latest = .ok (.imageSet set) := by
  have hnew : u ∉ encoded m.imageSets := fun hmem => (hgt u hmem).false
  have houtcome : Outcome m' .latest (.ok (.imageSet set)) :=
    .found (h.wellNamed hw hu) (h.means_latest_of_gt hu hgt) (h.carriers_of_not_mem hu hnew)
  exact select_of_outcome houtcome

end Inserted

/-- What happens to a selection when image sets change their places, and when one comes in
anywhere. -/
theorem select_rearranged {m : Manifest} (hw : WellNamed m.imageSets) :
    (∀ imageSets, m.imageSets.Perm imageSets → ∀ request,
      SameUpToOrder (m.select request) (Manifest.select { m with imageSets } request)) ∧
    (∀ imageSets set u, Inserts set m.imageSets imageSets → set.version? = some u →
      (∀ v, u ≠ v →
        Manifest.select { m with imageSets } (.exact v) = m.select (.exact v)) ∧
      (∀ w, SemVer.IsGreatest (encoded m.imageSets) w → u.numbers < w.numbers →
        Manifest.select { m with imageSets } .latest = m.select .latest) ∧
      ((∀ w, SemVer.IsGreatest (encoded m.imageSets) w → w.numbers < u.numbers) →
        Manifest.select { m with imageSets } .latest = .ok (.imageSet set))) := by
  refine ⟨fun imageSets h request =>
    sameUpToOrder_select { m with imageSets } hw rfl rfl h request, ?_⟩
  intro imageSets set u h hu
  refine ⟨fun v hne => ?_, fun w hgreatest hlt => ?_, fun hgt => ?_⟩
  · exact select_of_inserts { m with imageSets } hw rfl h hu hne (t := .exact v) rfl rfl
  · have hne : u ≠ w := fun heq => (heq ▸ hlt).false
    exact select_of_inserts { m with imageSets } hw rfl h hu hne (t := .latest) hgreatest
      (h.means_latest_of_lt hu hgreatest hlt)
  · refine select_latest_of_gt hw h hu fun w hmem => ?_
    have hne : m.imageSets ≠ [] := by
      rintro hnil
      rw [hnil] at hmem
      cases hmem
    obtain ⟨greatest, hgreatest⟩ := Target.exists_means hw hne
    exact (hgreatest.2 w hmem).trans_lt (hgt greatest hgreatest)

/-- Two image sets of one version. -/
def tied : Manifest where
  environment := .stage
  metadata := .ofNames "a" "a"
  imageSets := [⟨"a.v1.9.0", "i", [], none, none, none⟩, ⟨"b.v1.9.0", "j", [], none, none, none⟩]

/-- The two with another image set between them. -/
def tiedAround (set : ImageSet) : Manifest :=
  { tied with
    imageSets := [⟨"a.v1.9.0", "i", [], none, none, none⟩, set,
      ⟨"b.v1.9.0", "j", [], none, none, none⟩] }

theorem select_rearranged_tied :
    WellNamed tied.imageSets ∧
      tied.select .latest =
        .error (.ambiguous .stage "1.9.0" ["a.v1.9.0", "b.v1.9.0"]) ∧
      SameUpToOrder (tied.select .latest)
        (Manifest.select { tied with imageSets := tied.imageSets.reverse } .latest) ∧
      (tiedAround ⟨"a.v1.10.0", "k", [], none, none, none⟩).select .latest =
        .ok (.imageSet ⟨"a.v1.10.0", "k", [], none, none, none⟩) := by
  have hw : WellNamed tied.imageSets := by
    unfold WellNamed
    decide +kernel
  obtain ⟨hreordered, hinserted⟩ := select_rearranged hw
  have hgreater : ∀ w, SemVer.IsGreatest (encoded tied.imageSets) w →
      w.numbers < (SemVer.mk 1 10 0 "" "").numbers := by
    have hall : ∀ w ∈ encoded tied.imageSets,
        w.precedes (SemVer.mk 1 10 0 "" "") = true := by decide +kernel
    exact fun w hw => (SemVer.precedes_iff _ _).1 (hall w hw.1)
  obtain ⟨-, -, hlatest⟩ := hinserted _ ⟨"a.v1.10.0", "k", [], none, none, none⟩
    ⟨1, 10, 0, "", ""⟩ ⟨[_], [_], rfl, rfl⟩ (by decide +kernel)
  exact ⟨hw, by rfl, hreordered _ (List.reverse_perm _).symm .latest, hlatest hgreater⟩

end AddonLint.Resolution
