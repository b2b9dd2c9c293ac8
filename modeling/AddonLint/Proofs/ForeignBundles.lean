import AddonLint.Proofs.CachedBundles

/-!
# Bundles of other operators

An extraction reads the manifests of every bundle before it leaves out those of other
operators. So it does not depend on what these manifests say, but one that cannot be
read ends it.
-/
namespace AddonLint.Cache

/-- A directory holds a bundle of another operator. -/
def Foreign (fs : FileSystem) (parent operator name : String) : Prop :=
  ∃ package, Belongs fs parent name package ∧ package ≠ operator

/-- Two caches look the same but for the manifests of other operators' bundles. -/
structure SameOutside (fs fs' : FileSystem) (parent operator : String) : Prop where
  isDirectory : fs'.isDirectory parent = fs.isDirectory parent
  names : fs'.names parent = fs.names parent
  directories : ∀ name ∈ fs.names parent,
    fs'.isDirectory (Path.join parent name) = fs.isDirectory (Path.join parent name)
  annotations : ∀ name ∈ fs.names parent,
    fs.SameFile fs' (annotationsPath (Path.join parent name))
  manifests : ∀ name ∈ fs.names parent, ¬ Foreign fs parent operator name →
    fs.SameFiles fs' (manifestsPath (Path.join parent name))

/-- A manifest file of another operator's bundle cannot be read, for this reason. -/
def ForeignFault (fs : FileSystem) (parent operator : String) (e : ExtractionError) : Prop :=
  ∃ name file, Foreign fs parent operator name ∧
    IsManifestFile fs (manifestsPath (Path.join parent name)) file ∧
    readManifestFile fs (Path.join (manifestsPath (Path.join parent name)) file) = .error e

/-! ### What is read of a bundle -/

section Same

variable {fs fs' : FileSystem} {parent operator name : String}

theorem readAnnotations_of_sameFile {bundle : String}
    (h : fs.SameFile fs' (annotationsPath bundle)) :
    readAnnotations fs' bundle = readAnnotations fs bundle := by
  unfold readAnnotations readText
  change (if !fs'.isFile (annotationsPath bundle) then _ else _) =
    (if !fs.isFile (annotationsPath bundle) then _ else _)
  rw [h.isFile]
  simp only [annotationsPath] at h
  rw [h.readText]

theorem readManifests_of_sameFiles {directory : String} (h : fs.SameFiles fs' directory) :
    readManifests fs' directory = readManifests fs directory := by
  have hfiles : manifestFiles fs' directory = manifestFiles fs directory := h.filter_names _
  have hread : ∀ name ∈ manifestFiles fs directory,
      readManifestFile fs' (Path.join directory name) =
        readManifestFile fs (Path.join directory name) := by
    intro name hname
    unfold readManifestFile readText
    rw [(h.files name (List.mem_filter.1 hname).1).readText]
  unfold readManifests
  change (manifestFiles fs' directory).mapM _ >>= _ = (manifestFiles fs directory).mapM _ >>= _
  rw [hfiles, Fallible.mapM_congr_left hread]

theorem readBundle_of_same
    (hannotations : fs.SameFile fs' (annotationsPath (Path.join parent name)))
    (hmanifests : fs.SameFiles fs' (manifestsPath (Path.join parent name))) :
    readBundle fs' parent name = readBundle fs parent name := by
  have hread := readManifests_of_sameFiles hmanifests
  unfold manifestsPath at hread
  unfold readBundle
  simp only [readAnnotations_of_sameFile hannotations, hread]

end Same

/-! ### The bundles of one operator -/

/-- What the directory of a name adds to the bundles of an operator. -/
def readOwn (fs : FileSystem) (parent operator name : String) :
    Except ExtractionError (Option Bundle) :=
  (readBundle fs parent name).map fun b => b.filter fun b => b.package = operator

/-- To extract bundles is to pass over those of other operators. -/
theorem extract_eq_readOwn {fs : FileSystem} {cache image operator : String}
    (h : fs.isDirectory (imageDirectory cache image) = true) :
    extract fs cache image operator =
      (bundleNames fs (imageDirectory cache image)).mapM
          (readOwn fs (imageDirectory cache image) operator) >>= fun own =>
        match own.reduceOption with
        | [] => .error (.noBundles image operator)
        | bundles => .ok bundles := by
  have hread : (bundleNames fs (imageDirectory cache image)).mapM
        (readOwn fs (imageDirectory cache image) operator) =
      ((bundleNames fs (imageDirectory cache image)).mapM
        (readBundle fs (imageDirectory cache image))).map
          (List.map fun b => b.filter fun b => b.package = operator) := Fallible.mapM_map _ _ _
  rw [extract_of_isDirectory h, hread]
  cases (bundleNames fs (imageDirectory cache image)).mapM
      (readBundle fs (imageDirectory cache image)) with
  | error e => rfl
  | ok found =>
    have hown : ofOperator operator found =
        (found.map fun b => b.filter fun b => b.package = operator).reduceOption := by
      unfold ofOperator List.reduceOption
      rw [List.filterMap_map]
      rfl
    change (match ofOperator operator found with
      | [] => _
      | bundles => _) = _
    rw [hown]
    rfl

section Foreign

variable {fs : FileSystem} {parent operator name : String}

/-- A bundle of another operator adds nothing, once it has been read. -/
theorem readOwn_of_foreign (h : Foreign fs parent operator name) :
    readOwn fs parent operator name =
      (readManifests fs (manifestsPath (Path.join parent name))).map fun _ => none := by
  obtain ⟨package, ⟨-, -, annotations, hannotated, hpackage⟩, hne⟩ := h
  unfold readOwn
  rw [readBundle_of_annotated hannotated, hpackage]
  cases readManifests fs (manifestsPath (Path.join parent name)) with
  | error e => rfl
  | ok manifests => simp [Except.map, bundleOf, hne]

theorem foreignFault_of_readManifests (h : Foreign fs parent operator name)
    {e : ExtractionError}
    (he : readManifests fs (manifestsPath (Path.join parent name)) = .error e) :
    ForeignFault fs parent operator e := by
  unfold readManifests at he
  rcases Fallible.bind_eq_error_iff.1 he with he | ⟨documents, -, he⟩
  · obtain ⟨file, hfile, hread⟩ := Fallible.exists_error_of_mapM he
    exact ⟨name, file, h, mem_manifestFiles.1 hfile, hread⟩
  · cases he

theorem Readable.not_foreignFault (h : Readable fs parent) (e : ExtractionError) :
    ¬ ForeignFault fs parent operator e := by
  rintro ⟨name, file, ⟨package, hbelongs, -⟩, hfile, hread⟩
  obtain ⟨documents, hdocuments⟩ := h.manifests name package hbelongs file hfile
  rw [readManifestFile_eq_ok_iff.2 hdocuments] at hread
  cases hread

/-- An extraction that finds bundles has read those of other operators too. -/
theorem not_foreignFault_of_extract {cache image : String} {bundles : List Bundle}
    (h : extract fs cache image operator = .ok bundles) (e : ExtractionError) :
    ¬ ForeignFault fs (imageDirectory cache image) operator e := by
  rintro ⟨name, file, ⟨package, hbelongs, hne⟩, hfile, hread⟩
  have ⟨hlisted, hdirectory, annotations, hannotated, hpackage⟩ := hbelongs
  rw [extract_of_isDirectory (FileSystem.isDirectory_of_mem_names hlisted)] at h
  obtain ⟨found, hfound, -⟩ := Fallible.bind_eq_ok_iff.1 h
  obtain ⟨b, hb⟩ := Fallible.exists_ok_of_mapM hfound (mem_bundleNames.2 ⟨hlisted, hdirectory⟩)
  rw [readBundle_of_annotated hannotated, hpackage] at hb
  obtain ⟨manifests, hmanifests, -⟩ := Fallible.map_eq_ok_iff.1 hb
  unfold readManifests at hmanifests
  obtain ⟨documents, hdocuments, -⟩ := Fallible.bind_eq_ok_iff.1 hmanifests
  obtain ⟨values, hvalues⟩ := Fallible.exists_ok_of_mapM hdocuments (mem_manifestFiles.2 hfile)
  rw [hread] at hvalues
  cases hvalues

end Foreign

/-! ### Two contents of other operators' bundles -/

section SameOutside

variable {fs fs' : FileSystem} {parent operator : String} (h : SameOutside fs fs' parent operator)
include h

/-- The manifests of other bundles have no influence on which directories are searched. -/
theorem SameOutside.bundleNames_eq : bundleNames fs' parent = bundleNames fs parent := by
  unfold bundleNames
  rw [h.names]
  refine List.filter_congr fun name hname => ?_
  rw [h.directories name hname]

theorem SameOutside.foreign {name : String} (hforeign : Foreign fs parent operator name) :
    Foreign fs' parent operator name := by
  obtain ⟨package, ⟨hlisted, hdirectory, annotations, hannotated, hpackage⟩, hne⟩ := hforeign
  refine ⟨package, ⟨?_, ?_, annotations, ?_, hpackage⟩, hne⟩
  · rwa [h.names]
  · rwa [h.directories name hlisted]
  · obtain ⟨text, vals, htext, hvals, hann⟩ := hannotated
    exact ⟨text, vals, (h.annotations name hlisted).readText.trans htext, hvals, hann⟩

/-- A directory adds the same bundle, unless it is another operator's and cannot be read. -/
theorem readOwn_of_sameOutside {name : String} (hlisted : name ∈ fs.names parent) :
    readOwn fs' parent operator name = readOwn fs parent operator name ∨
      (∃ e, ForeignFault fs parent operator e ∧ readOwn fs parent operator name = .error e) ∨
      ∃ e, ForeignFault fs' parent operator e ∧ readOwn fs' parent operator name = .error e := by
  by_cases hforeign : Foreign fs parent operator name
  · -- Both manifest directories may say anything, but are only read for their faults.
    have hforeign' := h.foreign hforeign
    rw [readOwn_of_foreign hforeign, readOwn_of_foreign hforeign']
    cases hread : readManifests fs (manifestsPath (Path.join parent name)) with
    | error e => exact .inr (.inl ⟨e, foreignFault_of_readManifests hforeign hread, rfl⟩)
    | ok manifests =>
      cases hread' : readManifests fs' (manifestsPath (Path.join parent name)) with
      | error e => exact .inr (.inr ⟨e, foreignFault_of_readManifests hforeign' hread', rfl⟩)
      | ok manifests' => exact .inl rfl
  · left
    unfold readOwn
    rw [readBundle_of_same (h.annotations name hlisted) (h.manifests name hlisted hforeign)]

end SameOutside

theorem sameOutside_sharedImage (foreign foreign' : String) :
    SameOutside (sharedImage foreign) (sharedImage foreign') "/i" "own" := by
  have hcases : ∀ name ∈ (sharedImage foreign).names "/i", name = "a" ∨ name = "b" := by
    intro name hname
    rw [names_sharedImage] at hname
    simpa using hname
  constructor
  · rfl
  · rw [names_sharedImage, names_sharedImage]
  · intro name hname
    rcases hcases name hname with rfl | rfl <;> rfl
  · intro name hname
    rcases hcases name hname with rfl | rfl <;> exact ⟨rfl, rfl⟩
  · intro name hname hown
    rcases hcases name hname with rfl | rfl
    · have hnames : ∀ foreign, (sharedImage foreign).names (manifestsPath (Path.join "/i" "a")) =
          ["m.yaml"] := fun foreign => names_manifests_sharedImage foreign (by decide)
      refine ⟨by rw [hnames, hnames], fun file hfile => ?_⟩
      rw [hnames, List.mem_singleton] at hfile
      subst hfile
      exact ⟨rfl, rfl⟩
    · exact absurd ⟨"other", (belongs_sharedImage foreign).2, by decide⟩ hown

theorem foreignFault_sharedImage :
    ∃ e, ForeignFault (sharedImage "x: [") (imageDirectory "/" "i") "own" e := by
  have hstream : (Json.ofYamlStream "x: [").toOption.isSome = false := by decide +kernel
  have hread := readManifestFile_sharedImage "x: ["
  cases hvalues : Json.ofYamlStream "x: [" with
  | ok values =>
    rw [hvalues] at hstream
    cases hstream
  | error e =>
    rw [hvalues] at hread
    refine ⟨_, "b", "m.yaml", ⟨"other", (belongs_sharedImage "x: [").2, by decide⟩, ?_, hread⟩
    refine ⟨?_, ⟨"yaml", by decide, rfl⟩, rfl⟩
    show "m.yaml" ∈ (sharedImage "x: [").names (manifestsPath (Path.join "/i" "b"))
    rw [names_manifests_sharedImage _ (by decide)]
    exact List.mem_cons_self

/-- What the manifests of other operators' bundles say does not show, if they can be read. -/
theorem extract_of_sameOutside {fs fs' : FileSystem} {cache image operator : String}
    (h : SameOutside fs fs' (imageDirectory cache image) operator) :
    extract fs' cache image operator = extract fs cache image operator ∨
      (∃ e, ForeignFault fs (imageDirectory cache image) operator e ∧
        extract fs cache image operator = .error e) ∨
      ∃ e, ForeignFault fs' (imageDirectory cache image) operator e ∧
        extract fs' cache image operator = .error e := by
  cases hdirectory : fs.isDirectory (imageDirectory cache image) with
  | false =>
    left
    have hdirectory' := h.isDirectory.trans hdirectory
    rw [extract_of_not_isDirectory hdirectory, extract_of_not_isDirectory hdirectory']
  | true =>
    have hdirectory' := h.isDirectory.trans hdirectory
    rw [extract_eq_readOwn hdirectory, extract_eq_readOwn hdirectory', h.bundleNames_eq]
    have hsteps := Fallible.mapM_eq_or_error
      fun name (hname : name ∈ bundleNames fs (imageDirectory cache image)) =>
        readOwn_of_sameOutside h (mem_bundleNames.1 hname).1
    rcases hsteps with heq | ⟨e, he, heq⟩ | ⟨e, he, heq⟩
    · rw [heq]
      exact .inl rfl
    · rw [heq]
      exact .inr (.inl ⟨e, he, rfl⟩)
    · rw [heq]
      exact .inr (.inr ⟨e, he, rfl⟩)

theorem extract_of_sameOutside_sharedImage :
    SameOutside (sharedImage "kind: B\n") (sharedImage "kind: C\n")
        (imageDirectory "/" "i") "own" ∧
      extract (sharedImage "kind: C\n") "/" "i" "own" =
        extract (sharedImage "kind: B\n") "/" "i" "own" := by
  have hsame : SameOutside (sharedImage "kind: B\n") (sharedImage "kind: C\n")
      (imageDirectory "/" "i") "own" := sameOutside_sharedImage _ _
  obtain ⟨b, hb⟩ : ∃ documents, Json.ofYamlStream "kind: B\n" = .ok documents :=
    Fallible.exists_ok_of_isSome (by decide +kernel)
  obtain ⟨c, hc⟩ : ∃ documents, Json.ofYamlStream "kind: C\n" = .ok documents :=
    Fallible.exists_ok_of_isSome (by decide +kernel)
  refine ⟨hsame, ?_⟩
  rcases extract_of_sameOutside hsame with heq | ⟨e, hfault, -⟩ | ⟨e, hfault, -⟩
  · exact heq
  · exact absurd hfault ((readable_sharedImage _ hb).not_foreignFault e)
  · exact absurd hfault ((readable_sharedImage _ hc).not_foreignFault e)

/-- A manifest of another operator that cannot be read does show. -/
theorem extract_sharedImage_ne :
    SameOutside (sharedImage "kind: B\n") (sharedImage "x: [") (imageDirectory "/" "i") "own" ∧
      extract (sharedImage "x: [") "/" "i" "own" ≠
        extract (sharedImage "kind: B\n") "/" "i" "own" := by
  refine ⟨sameOutside_sharedImage _ _, fun heq => ?_⟩
  obtain ⟨documents, hdocuments⟩ : ∃ documents, Json.ofYamlStream "kind: B\n" = .ok documents :=
    Fallible.exists_ok_of_isSome (by decide +kernel)
  have hread : Readable (sharedImage "kind: B\n") (imageDirectory "/" "i") :=
    readable_sharedImage _ hdocuments
  have hdistinct := distinct_sharedImage "kind: B\n"
  obtain ⟨b, ⟨hholds, -, hpackage⟩, -⟩ :=
    (belongs_iff hdistinct hread).1 (belongs_sharedImage "kind: B\n").1
  obtain ⟨bundles, hbundles, -⟩ := exists_extract_of_holds hdistinct hread hholds
  rw [hpackage, ← heq] at hbundles
  obtain ⟨e, he⟩ := foreignFault_sharedImage
  exact not_foreignFault_of_extract hbundles e he

end AddonLint.Cache
