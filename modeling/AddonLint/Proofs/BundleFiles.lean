import AddonLint.Extraction.Cache
import AddonLint.Proofs.Fallible
import AddonLint.Proofs.Paths

/-!
# Bundles as they lie in a cache

What a directory says about the bundle in it: its annotations name the package and
the channels, and its manifests are the documents of the manifest files, file by file
in the order of their names. Reading a directory finds the bundle that lies there.
-/
namespace AddonLint.Cache

def annotationsPath (bundle : String) : String :=
  Path.join (Path.join bundle "metadata") "annotations.yaml"

def manifestsPath (bundle : String) : String := Path.join bundle "manifests"

/-- The annotations of a bundle can be read, and are these. -/
def Annotated (fs : FileSystem) (bundle : String) (annotations : Dict String) : Prop :=
  ∃ text vals, fs.readText (annotationsPath bundle) = .ok text ∧
    annotationsSchema.ofYaml text = .ok vals ∧ vals.1 = annotations

/-- A file of the directory is one with manifests, by its extension. -/
def IsManifestFile (fs : FileSystem) (directory name : String) : Prop :=
  name ∈ fs.names directory ∧
    (∃ e ∈ ["yaml", "yml", "json"], Path.extension? name = some e) ∧
    fs.isFile (Path.join directory name) = true

/-- A file can be read, and its documents are these, but for those that say nothing. -/
def HasDocuments (fs : FileSystem) (path : String) (documents : List Json) : Prop :=
  ∃ text values, fs.readText path = .ok text ∧
    List.Forall₂ (fun document value => Schema.any.ofDocument document = .ok value)
      (Yaml.Document.ofText text) values ∧
    documents = values.filter fun value => !value.isNull

/-- The manifest files of a directory can be read, and together hold these manifests. -/
def HasManifests (fs : FileSystem) (directory : String) (manifests : List Json) : Prop :=
  ∃ files documents, files.Pairwise Text.BytesLt ∧
    (∀ name, name ∈ files ↔ IsManifestFile fs directory name) ∧
    List.Forall₂ (fun name => HasDocuments fs (Path.join directory name)) files documents ∧
    manifests = documents.flatten

/-- The directory of a name below another one has annotations that name a package. -/
def Belongs (fs : FileSystem) (parent name package : String) : Prop :=
  name ∈ fs.names parent ∧ fs.isDirectory (Path.join parent name) = true ∧
    ∃ annotations, Annotated fs (Path.join parent name) annotations ∧
      annotations.get? packageAnnotation = some package

/-- A bundle lies in the directory of its name below another one. -/
structure Holds (fs : FileSystem) (parent : String) (b : Bundle) : Prop where
  listed : b.name ∈ fs.names parent
  isDirectory : fs.isDirectory (Path.join parent b.name) = true
  annotated : ∃ annotations, Annotated fs (Path.join parent b.name) annotations ∧
    annotations.get? packageAnnotation = some b.package ∧
    b.channels = ((annotations.get? channelsAnnotation).map Text.fields).getD [] ∧
    b.defaultChannel = annotations.get? defaultChannelAnnotation
  manifests : HasManifests fs (manifestsPath (Path.join parent b.name)) b.manifests

theorem Holds.belongs {fs : FileSystem} {parent : String} {b : Bundle} (h : Holds fs parent b) :
    Belongs fs parent b.name b.package := by
  obtain ⟨annotations, hannotated, hpackage, -, -⟩ := h.annotated
  exact ⟨h.listed, h.isDirectory, annotations, hannotated, hpackage⟩

/-! ### Reading a file -/

theorem readText_eq_ok_iff {fs : FileSystem} {path text : String} :
    readText fs path = .ok text ↔ fs.readText path = .ok text :=
  Fallible.mapError_eq_ok_iff

theorem isFile_of_readText {fs : FileSystem} {path text : String}
    (h : fs.readText path = .ok text) : fs.isFile path = true := by
  unfold FileSystem.readText at h
  unfold FileSystem.isFile
  split at h
  · cases h
  · cases h
  · rename_i hfind
    rw [hfind]

theorem readAnnotations_eq_some_iff {fs : FileSystem} {bundle : String}
    {annotations : Dict String} :
    readAnnotations fs bundle = .ok (some annotations) ↔ Annotated fs bundle annotations := by
  unfold readAnnotations
  change (if !fs.isFile (annotationsPath bundle) then _ else _) = _ ↔ _
  constructor
  · intro h
    split at h
    · cases h
    · obtain ⟨text, htext, h⟩ := Fallible.bind_eq_ok_iff.1 h
      obtain ⟨vals, hvals, h⟩ := Fallible.bind_eq_ok_iff.1 h
      cases h
      exact ⟨text, vals, readText_eq_ok_iff.1 htext, Fallible.mapError_eq_ok_iff.1 hvals, rfl⟩
  · rintro ⟨text, vals, htext, hvals, rfl⟩
    rw [isFile_of_readText htext]
    refine Fallible.bind_eq_ok_iff.2 ⟨text, readText_eq_ok_iff.2 htext, ?_⟩
    exact Fallible.bind_eq_ok_iff.2 ⟨vals, Fallible.mapError_eq_ok_iff.2 hvals, rfl⟩

/-- A bundle need not have a file of annotations. -/
theorem readAnnotations_of_not_isFile {fs : FileSystem} {bundle : String}
    (h : fs.isFile (annotationsPath bundle) = false) : readAnnotations fs bundle = .ok none := by
  unfold readAnnotations
  change (if !fs.isFile (annotationsPath bundle) then _ else _) = _
  rw [h]
  rfl

/-- The documents of a file that say nothing do not count as manifests. -/
theorem readManifestFile_eq_ok_iff {fs : FileSystem} {path : String} {documents : List Json} :
    readManifestFile fs path = .ok documents ↔ HasDocuments fs path documents := by
  unfold readManifestFile Json.ofYamlStream
  simp only [Fallible.bind_eq_ok_iff, Fallible.mapError_eq_ok_iff, readText_eq_ok_iff,
    Fallible.mapM_eq_ok_iff]
  constructor
  · rintro ⟨text, htext, values, hvalues, h⟩
    cases h
    exact ⟨text, values, htext, hvalues, rfl⟩
  · rintro ⟨text, values, htext, hvalues, rfl⟩
    exact ⟨text, htext, values, hvalues, rfl⟩

/-! ### Reading a directory -/

def manifestFiles (fs : FileSystem) (directory : String) : List String :=
  (fs.names directory).filter fun name =>
    Path.hasExtension manifestExtensions name && fs.isFile (Path.join directory name)

theorem mem_manifestFiles {fs : FileSystem} {directory name : String} :
    name ∈ manifestFiles fs directory ↔ IsManifestFile fs directory name := by
  change name ∈ fs.filesWith manifestExtensions directory ↔ _
  rw [FileSystem.mem_filesWith, Path.hasExtension_eq_true_iff, IsManifestFile, manifestExtensions]

/-- The manifests of a directory are those of its files, in the order of their names. -/
theorem readManifests_eq_ok_iff {fs : FileSystem} (hfs : fs.root.Distinct) {directory : String}
    {manifests : List Json} :
    readManifests fs directory = .ok manifests ↔ HasManifests fs directory manifests := by
  have hsorted : (manifestFiles fs directory).Pairwise (· < ·) :=
    FileSystem.pairwise_filesWith hfs manifestExtensions directory
  unfold readManifests
  change (manifestFiles fs directory).mapM _ >>= _ = _ ↔ _
  simp only [Fallible.bind_eq_ok_iff, Fallible.mapM_eq_ok_iff, readManifestFile_eq_ok_iff]
  constructor
  · rintro ⟨documents, hdocuments, h⟩
    cases h
    exact ⟨_, documents, hsorted.imp Text.bytesLt_iff.2, fun _ => mem_manifestFiles, hdocuments,
      rfl⟩
  · rintro ⟨files, documents, hfiles, hmem, hdocuments, rfl⟩
    -- The order and the members leave no choice of the files.
    obtain rfl : files = manifestFiles fs directory :=
      Text.eq_of_increasing id (hfiles.imp Text.bytesLt_iff.1) hsorted
        fun name => (hmem name).trans mem_manifestFiles.symm
    exact ⟨documents, hdocuments, rfl⟩

/-! ### Reading a bundle -/

/-- The bundle of a directory with annotations that name a package. -/
def bundleOf (name package : String) (annotations : Dict String) (manifests : List Json) :
    Bundle where
  name
  package
  channels := ((annotations.get? channelsAnnotation).map Text.fields).getD []
  defaultChannel := annotations.get? defaultChannelAnnotation
  manifests

section ReadBundle

variable {fs : FileSystem} {parent name : String}

theorem readBundle_of_not_isFile
    (h : fs.isFile (annotationsPath (Path.join parent name)) = false) :
    readBundle fs parent name = .ok none := by
  unfold readBundle
  dsimp only
  rw [readAnnotations_of_not_isFile h]
  rfl

/-- Only annotations that name a package have the manifests read. -/
theorem readBundle_of_annotated {annotations : Dict String}
    (h : Annotated fs (Path.join parent name) annotations) :
    readBundle fs parent name =
      match annotations.get? packageAnnotation with
      | none => .ok none
      | some package =>
        (readManifests fs (manifestsPath (Path.join parent name))).map fun manifests =>
          some (bundleOf name package annotations manifests) := by
  unfold readBundle
  dsimp only
  rw [readAnnotations_eq_some_iff.2 h]
  change (match annotations.get? packageAnnotation with
    | none => _
    | some package => _) = _
  cases annotations.get? packageAnnotation with
  | none => rfl
  | some package =>
    change readManifests fs (manifestsPath (Path.join parent name)) >>= _ = _
    cases readManifests fs (manifestsPath (Path.join parent name)) <;> rfl

theorem annotated_of_readBundle {b : Bundle} (h : readBundle fs parent name = .ok (some b)) :
    ∃ annotations, Annotated fs (Path.join parent name) annotations := by
  unfold readBundle at h
  obtain ⟨found, hfound, h⟩ := Fallible.bind_eq_ok_iff.1 h
  cases found with
  | none => cases h
  | some annotations => exact ⟨annotations, readAnnotations_eq_some_iff.1 hfound⟩

theorem name_of_readBundle {b : Bundle} (h : readBundle fs parent name = .ok (some b)) :
    b.name = name := by
  obtain ⟨annotations, hannotated⟩ := annotated_of_readBundle h
  rw [readBundle_of_annotated hannotated] at h
  split at h
  · cases h
  · obtain ⟨manifests, -, hb⟩ := Fallible.map_eq_ok_iff.1 h
    cases hb
    rfl

/-- Reading the directory of a name finds the bundle that lies there. -/
theorem readBundle_eq_some_iff (hfs : fs.root.Distinct) (hlisted : name ∈ fs.names parent)
    (hdirectory : fs.isDirectory (Path.join parent name) = true) {b : Bundle} :
    readBundle fs parent name = .ok (some b) ↔ Holds fs parent b ∧ b.name = name := by
  constructor
  · intro h
    obtain ⟨annotations, hannotated⟩ := annotated_of_readBundle h
    rw [readBundle_of_annotated hannotated] at h
    split at h
    · cases h
    · rename_i package hpackage
      obtain ⟨manifests, hmanifests, hb⟩ := Fallible.map_eq_ok_iff.1 h
      cases hb
      refine ⟨⟨hlisted, hdirectory, ?_, (readManifests_eq_ok_iff hfs).1 hmanifests⟩, rfl⟩
      exact ⟨annotations, hannotated, hpackage, rfl, rfl⟩
  · rintro ⟨⟨-, -, ⟨annotations, hannotated, hpackage, hchannels, hdefault⟩, hmanifests⟩, rfl⟩
    rw [readBundle_of_annotated hannotated, hpackage]
    refine Fallible.map_eq_ok_iff.2 ⟨_, (readManifests_eq_ok_iff hfs).2 hmanifests, ?_⟩
    rw [bundleOf, ← hchannels, ← hdefault]

end ReadBundle

end AddonLint.Cache
