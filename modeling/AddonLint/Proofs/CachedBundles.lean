import AddonLint.Proofs.BundleFiles

/-!
# Extraction finds the operator's bundles

When every file that is read can be read, extraction returns the bundles of the
operator that lie in the directory of the image: each of them once, in the order of
their names, whatever order the system lists them in. There are no other outcomes
than a missing image and an image without such a bundle.
-/
namespace AddonLint.Cache

/-- Every file that an extraction from the directory of an image reads can be read. -/
structure Readable (fs : FileSystem) (parent : String) : Prop where
  annotations : ∀ name ∈ fs.names parent, fs.isDirectory (Path.join parent name) = true →
    fs.isFile (annotationsPath (Path.join parent name)) = true →
    ∃ annotations, Annotated fs (Path.join parent name) annotations
  manifests : ∀ name package, Belongs fs parent name package →
    ∀ file, IsManifestFile fs (manifestsPath (Path.join parent name)) file →
    ∃ documents, HasDocuments fs
      (Path.join (manifestsPath (Path.join parent name)) file) documents

def bundleNames (fs : FileSystem) (parent : String) : List String :=
  (fs.names parent).filter fun name => fs.isDirectory (Path.join parent name)

theorem mem_bundleNames {fs : FileSystem} {parent name : String} :
    name ∈ bundleNames fs parent ↔
      name ∈ fs.names parent ∧ fs.isDirectory (Path.join parent name) = true :=
  List.mem_filter

def ofOperator (operator : String) (found : List (Option Bundle)) : List Bundle :=
  found.filterMap fun b => b.filter fun b => b.package = operator

theorem mem_ofOperator {operator : String} {found : List (Option Bundle)} {b : Bundle} :
    b ∈ ofOperator operator found ↔ some b ∈ found ∧ b.package = operator := by
  simp only [ofOperator, List.mem_filterMap, Option.filter_eq_some_iff, decide_eq_true_eq]
  constructor
  · rintro ⟨_, hmem, rfl, hpackage⟩
    exact ⟨hmem, hpackage⟩
  · rintro ⟨hmem, hpackage⟩
    exact ⟨some b, hmem, rfl, hpackage⟩

/-! ### The ways an extraction can end -/

section Ends

variable {fs : FileSystem} {cache image operator : String}

theorem extract_of_not_isDirectory (h : fs.isDirectory (imageDirectory cache image) = false) :
    extract fs cache image operator = .error (.indexImageNotFound image cache) := by
  unfold extract
  simp only [h]
  rfl

theorem extract_of_isDirectory (h : fs.isDirectory (imageDirectory cache image) = true) :
    extract fs cache image operator =
      (bundleNames fs (imageDirectory cache image)).mapM
          (readBundle fs (imageDirectory cache image)) >>= fun found =>
        match ofOperator operator found with
        | [] => .error (.noBundles image operator)
        | bundles => .ok bundles := by
  unfold extract
  simp only [h]
  rfl

end Ends

/-! ### Reading all directories of an image -/

section Found

variable {fs : FileSystem} {parent operator : String}

theorem exists_readManifests {bundle : String}
    (h : ∀ file, IsManifestFile fs (manifestsPath bundle) file →
      ∃ documents, HasDocuments fs (Path.join (manifestsPath bundle) file) documents) :
    ∃ manifests, readManifests fs (manifestsPath bundle) = .ok manifests := by
  obtain ⟨documents, hdocuments⟩ : ∃ documents,
      (manifestFiles fs (manifestsPath bundle)).mapM
        (fun name => readManifestFile fs (Path.join (manifestsPath bundle) name)) =
          .ok documents := by
    refine Fallible.exists_mapM_eq_ok fun file hfile => ?_
    obtain ⟨documents, hdocuments⟩ := h file (mem_manifestFiles.1 hfile)
    exact ⟨documents, readManifestFile_eq_ok_iff.2 hdocuments⟩
  exact ⟨documents.flatten, Fallible.bind_eq_ok_iff.2 ⟨documents, hdocuments, rfl⟩⟩

theorem exists_readBundle (hread : Readable fs parent) {name : String}
    (hname : name ∈ bundleNames fs parent) : ∃ b, readBundle fs parent name = .ok b := by
  obtain ⟨hlisted, hdirectory⟩ := mem_bundleNames.1 hname
  cases hfile : fs.isFile (annotationsPath (Path.join parent name)) with
  | false => exact ⟨none, readBundle_of_not_isFile hfile⟩
  | true =>
    obtain ⟨annotations, hannotated⟩ := hread.annotations name hlisted hdirectory hfile
    rw [readBundle_of_annotated hannotated]
    cases hpackage : annotations.get? packageAnnotation with
    | none => exact ⟨none, rfl⟩
    | some package =>
      have hbelongs : Belongs fs parent name package :=
        ⟨hlisted, hdirectory, annotations, hannotated, hpackage⟩
      obtain ⟨manifests, hmanifests⟩ :=
        exists_readManifests (hread.manifests name package hbelongs)
      exact ⟨some (bundleOf name package annotations manifests), by rw [hmanifests]; rfl⟩

theorem exists_found (hread : Readable fs parent) :
    ∃ found, (bundleNames fs parent).mapM (readBundle fs parent) = .ok found :=
  Fallible.exists_mapM_eq_ok fun _ hname => exists_readBundle hread hname

variable (hfs : fs.root.Distinct) {found : List (Option Bundle)}
  (hfound : (bundleNames fs parent).mapM (readBundle fs parent) = .ok found)
include hfs hfound

theorem some_mem_found_iff {b : Bundle} : some b ∈ found ↔ Holds fs parent b := by
  rw [Fallible.mem_iff_of_mapM hfound]
  constructor
  · rintro ⟨name, hname, hread⟩
    obtain ⟨hlisted, hdirectory⟩ := mem_bundleNames.1 hname
    exact ((readBundle_eq_some_iff hfs hlisted hdirectory).1 hread).1
  · intro hb
    exact ⟨b.name, mem_bundleNames.2 ⟨hb.listed, hb.isDirectory⟩,
      (readBundle_eq_some_iff hfs hb.listed hb.isDirectory).2 ⟨hb, rfl⟩⟩

theorem mem_ofOperator_iff {b : Bundle} :
    b ∈ ofOperator operator found ↔ Holds fs parent b ∧ b.package = operator := by
  rw [mem_ofOperator, some_mem_found_iff hfs hfound]

variable (operator) in
theorem pairwise_ofOperator :
    (ofOperator operator found).Pairwise fun a b => a.name < b.name := by
  have hnames : (bundleNames fs parent).Pairwise (· < ·) :=
    (FileSystem.pairwise_names hfs parent).filter _
  have hfoundNames : found.Pairwise fun a b => ∀ x ∈ a, ∀ y ∈ b, x.name < y.name := by
    refine Fallible.pairwise_of_mapM hfound hnames ?_
    rintro n n' a b hlt ha hb x rfl y rfl
    rwa [name_of_readBundle ha, name_of_readBundle hb]
  refine hfoundNames.filterMap _ ?_
  intro a b hab x hx y hy
  exact hab x (Option.filter_eq_some_iff.1 hx).1 y (Option.filter_eq_some_iff.1 hy).1

end Found

/-! ### Other orders of listings -/

section Relisted

variable {fs fs' : FileSystem} (h : fs.Relisted fs')
include h

theorem readText_relisted (path : String) : readText fs' path = readText fs path := by
  unfold readText
  rw [FileSystem.readText_relisted h]

theorem readAnnotations_relisted (bundle : String) :
    readAnnotations fs' bundle = readAnnotations fs bundle := by
  unfold readAnnotations
  simp only [FileSystem.isFile_relisted h, readText_relisted h]

theorem readManifests_relisted (directory : String) :
    readManifests fs' directory = readManifests fs directory := by
  unfold readManifests readManifestFile
  simp only [FileSystem.names_relisted h, FileSystem.isFile_relisted h, readText_relisted h]

/-- A bundle does not depend on the order in which directories are listed. -/
theorem readBundle_relisted (parent : String) : readBundle fs' parent = readBundle fs parent := by
  funext name
  unfold readBundle
  simp only [readAnnotations_relisted h, readManifests_relisted h]

/-- The order in which the system lists directories does not show. -/
theorem extract_relisted (cache : String) : extract fs' cache = extract fs cache := by
  funext image operator
  unfold extract
  simp only [FileSystem.isDirectory_relisted h, FileSystem.names_relisted h,
    readBundle_relisted h]

end Relisted

/-! ### The bundles of an operator -/

theorem Holds.eq_of_name {fs : FileSystem} (hfs : fs.root.Distinct) {parent : String}
    {b b' : Bundle} (h : Holds fs parent b) (h' : Holds fs parent b') (hname : b.name = b'.name) :
    b = b' := by
  have hb := (readBundle_eq_some_iff hfs h.listed h.isDirectory).2 ⟨h, rfl⟩
  have hb' := (readBundle_eq_some_iff hfs h'.listed h'.isDirectory).2 ⟨h', rfl⟩
  rw [← hname, hb] at hb'
  exact Option.some.inj (Except.ok.inj hb')

section Extract

variable {fs : FileSystem} (hfs : fs.root.Distinct) {cache image : String}
  (hread : Readable fs (imageDirectory cache image)) {operator : String}
include hfs hread

/-- A directory qualifies when, and only when, a bundle lies in it. -/
theorem belongs_iff {name : String} :
    Belongs fs (imageDirectory cache image) name operator ↔
      ∃! b, Holds fs (imageDirectory cache image) b ∧ b.name = name ∧ b.package = operator := by
  constructor
  · intro hbelongs
    have ⟨hlisted, hdirectory, annotations, hannotated, hpackage⟩ := hbelongs
    obtain ⟨manifests, hmanifests⟩ := exists_readManifests (hread.manifests name operator hbelongs)
    have hb : readBundle fs (imageDirectory cache image) name =
        .ok (some (bundleOf name operator annotations manifests)) := by
      rw [readBundle_of_annotated hannotated, hpackage, hmanifests]
      rfl
    obtain ⟨hholds, -⟩ := (readBundle_eq_some_iff hfs hlisted hdirectory).1 hb
    refine ⟨_, ⟨hholds, rfl, rfl⟩, ?_⟩
    rintro b ⟨hholds', hname, -⟩
    exact hholds'.eq_of_name hfs hholds hname
  · rintro ⟨b, ⟨hholds, rfl, rfl⟩, -⟩
    exact hholds.belongs

variable (operator) in
/-- Below the directory of an image, extraction sorts out the bundles that lie there. -/
theorem exists_extract_eq (h : fs.isDirectory (imageDirectory cache image) = true) :
    ∃ bundles : List Bundle,
      bundles.Pairwise (fun a b => Text.BytesLt a.name b.name) ∧
      (∀ b, b ∈ bundles ↔ Holds fs (imageDirectory cache image) b ∧ b.package = operator) ∧
      extract fs cache image operator =
        match bundles with
        | [] => .error (.noBundles image operator)
        | bundles => .ok bundles := by
  obtain ⟨found, hfound⟩ := exists_found hread
  have hsorted := pairwise_ofOperator operator hfs hfound
  refine ⟨ofOperator operator found, hsorted.imp Text.bytesLt_iff.2,
    fun b => mem_ofOperator_iff hfs hfound, ?_⟩
  rw [extract_of_isDirectory h, hfound]
  rfl

/-- Where every file can be read, there are two reasons to fail. -/
theorem extract_error {e : ExtractionError} (h : extract fs cache image operator = .error e) :
    e = .indexImageNotFound image cache ∨ e = .noBundles image operator := by
  cases hdirectory : fs.isDirectory (imageDirectory cache image) with
  | false =>
    rw [extract_of_not_isDirectory hdirectory] at h
    cases h
    exact .inl rfl
  | true =>
    obtain ⟨bundles, -, -, heq⟩ := exists_extract_eq hfs hread operator hdirectory
    rw [heq] at h
    cases bundles with
    | nil =>
      cases h
      exact .inr rfl
    | cons b rest => cases h

theorem extract_eq_indexImageNotFound_iff :
    extract fs cache image operator = .error (.indexImageNotFound image cache) ↔
      fs.isDirectory (imageDirectory cache image) = false := by
  constructor
  · intro h
    by_contra hdirectory
    rw [Bool.not_eq_false] at hdirectory
    obtain ⟨bundles, -, -, heq⟩ := exists_extract_eq hfs hread operator hdirectory
    rw [heq] at h
    cases bundles <;> cases h
  · exact extract_of_not_isDirectory

theorem extract_eq_noBundles_iff :
    extract fs cache image operator = .error (.noBundles image operator) ↔
      fs.isDirectory (imageDirectory cache image) = true ∧
        ∀ name, ¬ Belongs fs (imageDirectory cache image) name operator := by
  cases hdirectory : fs.isDirectory (imageDirectory cache image) with
  | false =>
    rw [extract_of_not_isDirectory hdirectory]
    simp
  | true =>
    obtain ⟨bundles, -, hmem, heq⟩ := exists_extract_eq hfs hread operator hdirectory
    have hnone : bundles = [] ↔
        ∀ name, ¬ Belongs fs (imageDirectory cache image) name operator := by
      rw [List.eq_nil_iff_forall_not_mem]
      constructor
      · intro hempty name hbelongs
        obtain ⟨b, ⟨hholds, -, hpackage⟩, -⟩ := (belongs_iff hfs hread).1 hbelongs
        exact hempty b ((hmem b).2 ⟨hholds, hpackage⟩)
      · intro hforeign b hb
        obtain ⟨hholds, rfl⟩ := (hmem b).1 hb
        exact hforeign b.name hholds.belongs
    rw [heq, ← hnone]
    cases bundles <;> simp

/-- The bundles of an operator come all, alone and in the order of their names. -/
theorem extract_eq_ok_iff {bundles : List Bundle} :
    extract fs cache image operator = .ok bundles ↔
      bundles ≠ [] ∧ bundles.Pairwise (fun a b => Text.BytesLt a.name b.name) ∧
        ∀ b, b ∈ bundles ↔ Holds fs (imageDirectory cache image) b ∧ b.package = operator := by
  constructor
  · intro h
    have hdirectory : fs.isDirectory (imageDirectory cache image) = true := by
      by_contra hdirectory
      rw [Bool.not_eq_true] at hdirectory
      rw [extract_of_not_isDirectory hdirectory] at h
      cases h
    obtain ⟨bundles', hsorted, hmem, heq⟩ :=
      exists_extract_eq hfs hread operator hdirectory
    rw [heq] at h
    cases bundles' with
    | nil => cases h
    | cons b rest =>
      cases h
      exact ⟨List.cons_ne_nil b rest, hsorted, hmem⟩
  · rintro ⟨hne, hsorted, hmem⟩
    obtain ⟨b, hb⟩ := List.exists_mem_of_ne_nil bundles hne
    have hlisted := ((hmem b).1 hb).1.listed
    obtain ⟨bundles', hsorted', hmem', heq⟩ := exists_extract_eq hfs hread operator
      (FileSystem.isDirectory_of_mem_names hlisted)
    -- Both lists are in the order of the names and have the same members.
    obtain rfl : bundles' = bundles :=
      Text.eq_of_increasing (·.name) (hsorted'.imp Text.bytesLt_iff.1)
        (hsorted.imp Text.bytesLt_iff.1) fun b => (hmem' b).trans (hmem b).symm
    rw [heq]
    cases bundles' with
    | nil => exact absurd rfl hne
    | cons => rfl

theorem exists_extract_of_holds {b : Bundle} (hb : Holds fs (imageDirectory cache image) b) :
    ∃ bundles, extract fs cache image b.package = .ok bundles ∧ b ∈ bundles := by
  obtain ⟨bundles, hsorted, hmem, -⟩ := exists_extract_eq hfs hread b.package
    (FileSystem.isDirectory_of_mem_names hb.listed)
  have hin : b ∈ bundles := (hmem b).2 ⟨hb, rfl⟩
  have hne : bundles ≠ [] := List.ne_nil_of_mem hin
  exact ⟨bundles, (extract_eq_ok_iff hfs hread).2 ⟨hne, hsorted, hmem⟩, hin⟩

end Extract

/-! ### An image with bundles of two operators -/

def packageText (package : String) : String :=
  "annotations:\n  operators.operatorframework.io.bundle.package.v1: " ++ package ++ "\n"

def bundleTree (package manifest : String) : FileTree :=
  .directory [
    ("metadata", .directory [("annotations.yaml", .file (packageText package).toUTF8)]),
    ("manifests", .directory [("m.yaml", .file manifest.toUTF8)])]

/-- An image with the bundle `a` of one operator and the bundle `b` of another one. -/
def sharedImage (foreign : String) : FileSystem where
  root := .directory [("i", .directory [
    ("a", bundleTree "own" "kind: A\n"), ("b", bundleTree "other" foreign)])]
  workingDirectory := none

theorem ofYaml_packageText : ∀ package ∈ ["own", "other"], ∃ vals,
    annotationsSchema.ofYaml (packageText package) = .ok vals ∧
      vals.1.get? packageAnnotation = some package := by
  intro package hpackage
  have hread : (annotationsSchema.ofYaml (packageText package)).toOption.bind
      (fun vals => vals.1.get? packageAnnotation) = some package := by
    revert package
    decide +kernel
  obtain ⟨vals, hvals, hvalsPackage⟩ := Option.bind_eq_some_iff.1 hread
  exact ⟨vals, Fallible.eq_ok_of_toOption hvals, hvalsPackage⟩

section SharedImage

variable (foreign : String)

theorem distinct_sharedImage : (sharedImage foreign).root.Distinct := by
  simp [sharedImage, bundleTree, FileTree.distinct_directory_iff, FileTree.Distinct.file]

theorem names_sharedImage : (sharedImage foreign).names "/i" = ["a", "b"] := by
  have hfind : (sharedImage foreign).find "/i" = .ok (.directory [
    ("a", bundleTree "own" "kind: A\n"), ("b", bundleTree "other" foreign)]) := rfl
  exact FileSystem.names_of_sorted hfind (by simp)

theorem names_manifests_sharedImage {name : String} (hname : name ∈ ["a", "b"]) :
    (sharedImage foreign).names (manifestsPath (Path.join "/i" name)) = ["m.yaml"] := by
  have hfind : ∃ tree, (sharedImage foreign).find (manifestsPath (Path.join "/i" name)) =
      .ok (.directory [("m.yaml", tree)]) := by
    simp only [List.mem_cons, List.not_mem_nil, or_false] at hname
    rcases hname with rfl | rfl
    · exact ⟨_, rfl⟩
    · exact ⟨_, rfl⟩
  obtain ⟨tree, hfind⟩ := hfind
  exact FileSystem.names_of_sorted hfind (List.pairwise_singleton _ _)

theorem belongs_sharedImage :
    Belongs (sharedImage foreign) "/i" "a" "own" ∧
      Belongs (sharedImage foreign) "/i" "b" "other" := by
  have hnames := names_sharedImage foreign
  obtain ⟨own, hown, hownPackage⟩ := ofYaml_packageText "own" (by decide)
  obtain ⟨other, hother, hotherPackage⟩ := ofYaml_packageText "other" (by decide)
  refine ⟨⟨by rw [hnames]; decide, rfl, _, ⟨_, own, rfl, hown, rfl⟩, hownPackage⟩, ?_⟩
  exact ⟨by rw [hnames]; decide, rfl, _, ⟨_, other, rfl, hother, rfl⟩, hotherPackage⟩

theorem readManifestFile_sharedImage :
    readManifestFile (sharedImage foreign)
        (Path.join (manifestsPath (Path.join "/i" "b")) "m.yaml") =
      (Json.ofYamlStream foreign).mapError
        (.manifest (Path.join (manifestsPath (Path.join "/i" "b")) "m.yaml")) := by
  have hfind : (sharedImage foreign).find
      (Path.join (manifestsPath (Path.join "/i" "b")) "m.yaml") = .ok (.file foreign.toUTF8) := rfl
  rw [readManifestFile, readText, FileSystem.readText_of_find hfind]
  rfl

/-- All files of the image can be read if the manifest of the other operator can. -/
theorem readable_sharedImage {documents : List Json}
    (h : Json.ofYamlStream foreign = .ok documents) : Readable (sharedImage foreign) "/i" := by
  obtain ⟨⟨-, -, own, hown, -⟩, -, -, other, hother, -⟩ := belongs_sharedImage foreign
  constructor
  · intro name hname _ _
    rw [names_sharedImage] at hname
    simp only [List.mem_cons, List.not_mem_nil, or_false] at hname
    rcases hname with rfl | rfl
    · exact ⟨own, hown⟩
    · exact ⟨other, hother⟩
  · intro name package hbelongs file hfile
    have hname := hbelongs.1
    rw [names_sharedImage] at hname
    have hlisted := hfile.1
    rw [names_manifests_sharedImage foreign hname, List.mem_singleton] at hlisted
    subst hlisted
    simp only [List.mem_cons, List.not_mem_nil, or_false] at hname
    rcases hname with rfl | rfl
    · obtain ⟨values, hvalues⟩ : ∃ values, Json.ofYamlStream "kind: A\n" = .ok values :=
        Fallible.exists_ok_of_isSome (by decide +kernel)
      refine ⟨values, readManifestFile_eq_ok_iff.1 ?_⟩
      refine Fallible.bind_eq_ok_iff.2 ⟨"kind: A\n", rfl, ?_⟩
      exact Fallible.mapError_eq_ok_iff.2 hvalues
    · refine ⟨documents, readManifestFile_eq_ok_iff.1 ?_⟩
      rw [readManifestFile_sharedImage, h]
      rfl

end SharedImage

/-- What an extraction comes to when all files can be read. -/
theorem extract_bundles {fs : FileSystem} (hfs : fs.root.Distinct) (cache image : String)
    (hread : Readable fs (imageDirectory cache image)) (operator : String) :
    let parent := imageDirectory cache image
    let result := extract fs cache image operator
    (result = .error (.indexImageNotFound image cache) ↔ fs.isDirectory parent = false) ∧
    (result = .error (.noBundles image operator) ↔
      fs.isDirectory parent = true ∧ ∀ name, ¬ Belongs fs parent name operator) ∧
    (∀ bundles, result = .ok bundles ↔
      bundles ≠ [] ∧ bundles.Pairwise (fun a b => Text.BytesLt a.name b.name) ∧
        ∀ b, b ∈ bundles ↔ Holds fs parent b ∧ b.package = operator) ∧
    (∀ e, result = .error e → e = .indexImageNotFound image cache ∨ e = .noBundles image operator) ∧
    (∀ name, Belongs fs parent name operator ↔
      ∃! b, Holds fs parent b ∧ b.name = name ∧ b.package = operator) ∧
    (∀ b, Holds fs parent b → ∀ other,
      (∃ bundles, extract fs cache image other = .ok bundles ∧ b ∈ bundles) ↔
        other = b.package) ∧
    (∀ fs', fs.Relisted fs' → extract fs' cache image operator = result) := by
  intro parent result
  refine ⟨extract_eq_indexImageNotFound_iff hfs hread, extract_eq_noBundles_iff hfs hread,
    fun bundles => extract_eq_ok_iff hfs hread, fun e => extract_error hfs hread,
    fun name => belongs_iff hfs hread, ?_, ?_⟩
  · intro b hb other
    constructor
    · rintro ⟨bundles, hok, hmem⟩
      obtain ⟨-, -, hbundles⟩ := (extract_eq_ok_iff hfs hread).1 hok
      exact ((hbundles b).1 hmem).2.symm
    · rintro rfl
      exact exists_extract_of_holds hfs hread hb
  · intro fs' hrelisted
    show extract fs' cache image operator = extract fs cache image operator
    rw [extract_relisted hrelisted]

theorem extract_bundles_sharedImage :
    ((sharedImage "kind: B\n").root.Distinct ∧
      Readable (sharedImage "kind: B\n") (imageDirectory "/" "i")) ∧
    ∃ b : Bundle, b.name = "a" ∧ ∀ operator,
      (∃ bundles, extract (sharedImage "kind: B\n") "/" "i" operator = .ok bundles ∧
        b ∈ bundles) ↔ operator = "own" := by
  obtain ⟨documents, hdocuments⟩ : ∃ documents, Json.ofYamlStream "kind: B\n" = .ok documents :=
    Fallible.exists_ok_of_isSome (by decide +kernel)
  have hdistinct := distinct_sharedImage "kind: B\n"
  have hread : Readable (sharedImage "kind: B\n") (imageDirectory "/" "i") :=
    readable_sharedImage _ hdocuments
  obtain ⟨-, -, -, -, hbelongs, honly, -⟩ := extract_bundles hdistinct "/" "i" hread "own"
  obtain ⟨b, ⟨hholds, hname, hpackage⟩, -⟩ := (hbelongs "a").1 (belongs_sharedImage _).1
  refine ⟨⟨hdistinct, hread⟩, b, hname, fun operator => ?_⟩
  rw [honly b hholds operator, hpackage]

end AddonLint.Cache
