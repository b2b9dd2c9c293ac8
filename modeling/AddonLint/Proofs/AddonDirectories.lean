import AddonLint.Manifest.Directory
import AddonLint.Proofs.Fallible
import AddonLint.Proofs.Paths

/-!
# Manifests as they lie in an addon directory

A manifest is loaded if the file of the metadata and all files of image sets can be read, and it
holds what they say, file by file. Otherwise the first file that cannot be read is to blame. No
other file of the tree is looked at, and neither is the order in which directories are listed.
-/
namespace AddonLint

/-- A tree as a file system can hold it. -/
structure FileTree.Proper (t : FileTree) : Prop where
  distinct : t.Distinct
  named : t.Named

namespace Manifest

/-- A file of a directory has image sets: it is a regular one with such an extension. -/
structure IsImageSetFile (fs : FileSystem) (parent name : String) : Prop where
  listed : name ∈ fs.names parent
  extension : Path.EndsIn ["yaml", "yml"] name
  isFile : fs.isFile (Path.join parent name) = true

/-- A file has a text from which a schema reads values. -/
def Decodes (fs : FileSystem) (schema : Schema) (path : String) (vals : schema.Val) : Prop :=
  ∃ text, fs.readText path = .ok text ∧ schema.ofYaml text = .ok vals

/-- What keeps a file from being decoded, as it is reported. -/
inductive Defect (fs : FileSystem) (schema : Schema) (path : String) : LoadError → Prop
  | absent : fs.find path = .error .notFound → Defect fs schema path (.fileNotFound path)
  | unreachable {source : IoError} : fs.find path = .error source → source ≠ .notFound →
      Defect fs schema path (.io path source)
  | directory {entries : List (String × FileTree)} : fs.find path = .ok (.directory entries) →
      Defect fs schema path (.io path .isADirectory)
  | notText {contents : ByteArray} : fs.find path = .ok (.file contents) →
      String.fromUTF8? contents = none → Defect fs schema path (.io path .notText)
  | undecodable {text : String} {source : Yaml.Error} : fs.readText path = .ok text →
      schema.ofYaml text = .error source → Defect fs schema path (.yaml path source)

/-- The manifest that lies in an addon directory for an environment. -/
structure Lies (fs : FileSystem) (directory : String) (environment : Environment)
    (manifest : Manifest) : Prop where
  requested : manifest.environment = environment
  metadata : ∃ vals, Decodes fs AddonMetadata.schema (metadataPath directory environment) vals ∧
    manifest.metadata = .ofVals vals
  imageSets : ∃ files sets, files.Pairwise Text.BytesLt ∧
    (∀ name, name ∈ files ↔ IsImageSetFile fs (imageSetDirectory directory environment) name) ∧
    List.Forall₂ (fun name vals => Decodes fs ImageSet.schema
      (Path.join (imageSetDirectory directory environment) name) vals) files sets ∧
    manifest.imageSets = sets.map ImageSet.ofVals

/-- The first file, in the order of loading, that keeps the manifest from being loaded. -/
inductive Blocks (fs : FileSystem) (directory : String) (environment : Environment) :
    LoadError → Prop
  | metadata {e : LoadError} :
      Defect fs AddonMetadata.schema (metadataPath directory environment) e →
      Blocks fs directory environment e
  | imageSet {e : LoadError} {vals : AddonMetadata.schema.Val} {name : String} :
      Decodes fs AddonMetadata.schema (metadataPath directory environment) vals →
      IsImageSetFile fs (imageSetDirectory directory environment) name →
      Defect fs ImageSet.schema (Path.join (imageSetDirectory directory environment) name) e →
      (∀ earlier, IsImageSetFile fs (imageSetDirectory directory environment) earlier →
        Text.BytesLt earlier name → ∃ vals, Decodes fs ImageSet.schema
          (Path.join (imageSetDirectory directory environment) earlier) vals) →
      Blocks fs directory environment e

/-- Two trees have the same files at the paths that loading a manifest reads. -/
structure SameSources (fs fs' : FileSystem) (directory : String) (environment : Environment) :
    Prop where
  metadata : fs'.readText (metadataPath directory environment) =
    fs.readText (metadataPath directory environment)
  isFile : ∀ name, Path.IsName name → Path.EndsIn ["yaml", "yml"] name →
    let path := Path.join (imageSetDirectory directory environment) name
    fs'.isFile path = fs.isFile path
  readText : ∀ name, Path.IsName name → Path.EndsIn ["yaml", "yml"] name →
    let path := Path.join (imageSetDirectory directory environment) name
    fs.isFile path = true → fs'.readText path = fs.readText path

/-! ### Reading a file -/

section ReadFile

variable {fs : FileSystem} {schema : Schema} {path : String}

theorem readFile_of_readText {text : String} (h : fs.readText path = .ok text) :
    readFile fs schema path = (schema.ofYaml text).mapError (.yaml path) := by
  rw [readFile, h]

theorem readFile_eq_ok_iff {vals : schema.Val} :
    readFile fs schema path = .ok vals ↔ Decodes fs schema path vals := by
  constructor
  · intro h
    cases htext : fs.readText path with
    | ok text =>
      rw [readFile_of_readText htext, Fallible.mapError_eq_ok_iff] at h
      exact ⟨text, htext, h⟩
    | error source =>
      rw [readFile, htext] at h
      cases source <;> cases h
  · rintro ⟨text, htext, hvals⟩
    rw [readFile_of_readText htext, Fallible.mapError_eq_ok_iff]
    exact hvals

theorem defect_of_readText {source : IoError} (h : fs.readText path = .error source) :
    Defect fs schema path
      (if source = .notFound then .fileNotFound path else .io path source) := by
  unfold FileSystem.readText at h
  split at h
  · rename_i hfind
    cases h
    split
    · rename_i hsource
      rw [hsource] at hfind
      exact .absent hfind
    · rename_i hsource
      exact .unreachable hfind hsource
  · rename_i hfind
    cases h
    exact .directory hfind
  · rename_i hfind
    split at h
    · cases h
    · rename_i hbytes
      cases h
      exact .notText hfind hbytes

theorem readFile_of_readText_error {source : IoError} (h : fs.readText path = .error source) :
    readFile fs schema path =
      .error (if source = .notFound then .fileNotFound path else .io path source) := by
  rw [readFile, h]
  cases source <;> rfl

theorem Defect.readFile_eq {e : LoadError} (h : Defect fs schema path e) :
    readFile fs schema path = .error e := by
  cases h with
  | absent hfind =>
    have htext : fs.readText path = .error .notFound := by rw [FileSystem.readText, hfind]
    rw [readFile_of_readText_error htext, if_pos rfl]
  | @unreachable source hfind hsource =>
    have htext : fs.readText path = .error source := by rw [FileSystem.readText, hfind]
    rw [readFile_of_readText_error htext, if_neg hsource]
  | directory hfind =>
    have htext : fs.readText path = .error .isADirectory := by rw [FileSystem.readText, hfind]
    rw [readFile_of_readText_error htext, if_neg (by decide)]
  | notText hfind hbytes =>
    have htext : fs.readText path = .error .notText := by
      rw [FileSystem.readText, hfind]
      dsimp only
      rw [hbytes]
    rw [readFile_of_readText_error htext, if_neg (by decide)]
  | undecodable htext hvals =>
    rw [readFile_of_readText htext, hvals]
    rfl

/-- Reading a file fails as its defect says. -/
theorem readFile_eq_error_iff {e : LoadError} :
    readFile fs schema path = .error e ↔ Defect fs schema path e := by
  refine ⟨fun h => ?_, Defect.readFile_eq⟩
  cases htext : fs.readText path with
  | ok text =>
    rw [readFile_of_readText htext] at h
    cases hvals : schema.ofYaml text with
    | ok vals =>
      rw [hvals] at h
      cases h
    | error source =>
      rw [hvals] at h
      cases h
      exact .undecodable htext hvals
  | error source =>
    rw [readFile_of_readText_error htext] at h
    obtain rfl := Except.error.inj h
    exact defect_of_readText htext

/-- A missing file, a file whose text is not as it should be and an unreadable file are told
apart. -/
theorem Defect.kind {e : LoadError} (h : Defect fs schema path e) :
    (e = .fileNotFound path ↔ fs.find path = .error .notFound) ∧
    ((∃ source, e = .yaml path source) ↔ ∃ text, fs.readText path = .ok text) ∧
    ((∃ source, e = .io path source) ↔
      fs.find path ≠ .error .notFound ∧ ∀ text, fs.readText path ≠ .ok text) := by
  cases h with
  | absent hfind => simp [FileSystem.readText, hfind]
  | unreachable hfind hsource => simp [FileSystem.readText, hfind, hsource]
  | directory hfind => simp [FileSystem.readText, hfind]
  | notText hfind hbytes => simp [FileSystem.readText, hfind, hbytes]
  | undecodable htext hvals =>
    have hfind : fs.find path ≠ .error .notFound := by
      intro hfind
      rw [FileSystem.readText, hfind] at htext
      cases htext
    simp [htext, hfind]

end ReadFile

/-! ### The files of the image sets -/

section Files

variable {fs : FileSystem} {directory : String} {environment : Environment}

/-- The names of the image set files as they are listed. -/
def imageSetFiles (fs : FileSystem) (parent : String) : List String :=
  fs.filesWith imageSetExtensions parent

theorem mem_imageSetFiles {parent name : String} :
    name ∈ imageSetFiles fs parent ↔ IsImageSetFile fs parent name := by
  have hpoints : ∀ e ∈ imageSetExtensions, '.' ∉ e.toList := by decide
  rw [imageSetFiles, FileSystem.mem_filesWith, Path.hasExtension_iff_endsIn hpoints]
  exact ⟨fun h => ⟨h.1, h.2.1, h.2.2⟩, fun h => ⟨h.listed, h.extension, h.isFile⟩⟩

/-- In a proper tree no image set file is read twice, and they are read by increasing names. -/
theorem pairwise_imageSetFiles (hfs : fs.root.Proper) (parent : String) :
    (imageSetFiles fs parent).Pairwise (· < ·) :=
  FileSystem.pairwise_filesWith hfs.distinct imageSetExtensions parent

theorem isImageSetFile_iff (hfs : fs.root.Proper) {name : String} :
    IsImageSetFile fs (imageSetDirectory directory environment) name ↔
      Path.IsName name ∧ Path.EndsIn ["yaml", "yml"] name ∧
        fs.isFile (Path.join (imageSetDirectory directory environment) name) = true := by
  have hname : Path.IsName environment.name := by
    cases environment <;> exact ⟨by decide, by decide, by decide, by decide⟩
  have hopen : Path.IsOpen (imageSetDirectory directory environment) :=
    Path.isOpen_join _ hname
  constructor
  · intro h
    exact ⟨FileSystem.isName_of_mem_names hfs.named h.listed, h.extension, h.isFile⟩
  · rintro ⟨hn, hextension, hfile⟩
    exact ⟨FileSystem.mem_names_of_isFile hopen hn hfile, hextension, hfile⟩

theorem imageSetFiles_of_not_isDirectory {parent : String} (h : fs.isDirectory parent = false) :
    imageSetFiles fs parent = [] := by
  refine List.eq_nil_iff_forall_not_mem.2 fun name hname => ?_
  have hlisted := (mem_imageSetFiles.1 hname).listed
  rw [FileSystem.isDirectory_of_mem_names hlisted] at h
  cases h

def readImageSets (fs : FileSystem) (parent : String) (files : List String) :
    Except LoadError (List ImageSet.schema.Val) :=
  files.mapM fun name => readFile fs ImageSet.schema (Path.join parent name)

theorem load_eq : load fs directory environment =
    (readFile fs AddonMetadata.schema (metadataPath directory environment) >>= fun metadata =>
      readImageSets fs (imageSetDirectory directory environment)
        (imageSetFiles fs (imageSetDirectory directory environment)) >>= fun sets =>
      .ok ⟨environment, .ofVals metadata, sets.map ImageSet.ofVals⟩) := by
  unfold load imageSetPaths readImageSets imageSetFiles FileSystem.filesWith
  simp only [List.mapM_map]
  rfl

theorem readImageSets_eq_ok_iff {parent : String} {files : List String}
    {sets : List ImageSet.schema.Val} :
    readImageSets fs parent files = .ok sets ↔
      List.Forall₂ (fun name vals => Decodes fs ImageSet.schema (Path.join parent name) vals)
        files sets := by
  have hstep : ∀ name vals,
      readFile fs ImageSet.schema (Path.join parent name) = .ok vals ↔
        Decodes fs ImageSet.schema (Path.join parent name) vals :=
    fun _ _ => readFile_eq_ok_iff
  rw [readImageSets, Fallible.mapM_eq_ok_iff]
  exact ⟨List.Forall₂.imp fun name vals => (hstep name vals).1,
    List.Forall₂.imp fun name vals => (hstep name vals).2⟩

end Files

/-! ### Loading -/

section Load

variable {fs : FileSystem} {directory : String} {environment : Environment}

theorem exists_load_iff :
    (∃ manifest, load fs directory environment = .ok manifest) ↔
      (∃ vals, Decodes fs AddonMetadata.schema (metadataPath directory environment) vals) ∧
      ∀ name, IsImageSetFile fs (imageSetDirectory directory environment) name → ∃ vals,
        Decodes fs ImageSet.schema
          (Path.join (imageSetDirectory directory environment) name) vals := by
  constructor
  · rintro ⟨manifest, h⟩
    rw [load_eq] at h
    obtain ⟨metadata, hmetadata, h⟩ := Fallible.bind_eq_ok_iff.1 h
    obtain ⟨sets, hsets, -⟩ := Fallible.bind_eq_ok_iff.1 h
    refine ⟨⟨metadata, readFile_eq_ok_iff.1 hmetadata⟩, fun name hname => ?_⟩
    obtain ⟨vals, hvals⟩ := Fallible.exists_ok_of_mapM hsets (mem_imageSetFiles.2 hname)
    exact ⟨vals, readFile_eq_ok_iff.1 hvals⟩
  · rintro ⟨⟨metadata, hmetadata⟩, hfiles⟩
    have hread : ∀ name ∈ imageSetFiles fs (imageSetDirectory directory environment), ∃ vals,
        readFile fs ImageSet.schema (Path.join (imageSetDirectory directory environment) name) =
          .ok vals := by
      intro name hname
      obtain ⟨vals, hvals⟩ := hfiles name (mem_imageSetFiles.1 hname)
      exact ⟨vals, readFile_eq_ok_iff.2 hvals⟩
    obtain ⟨sets, hsets⟩ := Fallible.exists_mapM_eq_ok hread
    refine ⟨⟨environment, .ofVals metadata, sets.map ImageSet.ofVals⟩, ?_⟩
    rw [load_eq]
    refine Fallible.bind_eq_ok_iff.2 ⟨metadata, readFile_eq_ok_iff.2 hmetadata, ?_⟩
    exact Fallible.bind_eq_ok_iff.2 ⟨sets, hsets, rfl⟩

theorem imageSets_of_not_isDirectory {manifest : Manifest}
    (hload : load fs directory environment = .ok manifest)
    (h : fs.isDirectory (imageSetDirectory directory environment) = false) :
    manifest.imageSets = [] := by
  rw [load_eq, imageSetFiles_of_not_isDirectory h] at hload
  obtain ⟨metadata, -, hload⟩ := Fallible.bind_eq_ok_iff.1 hload
  cases hload
  rfl

section Proper

variable (hfs : fs.root.Proper)
include hfs

theorem load_eq_ok_iff {manifest : Manifest} :
    load fs directory environment = .ok manifest ↔ Lies fs directory environment manifest := by
  have hsorted := pairwise_imageSetFiles hfs (imageSetDirectory directory environment)
  rw [load_eq]
  constructor
  · intro h
    obtain ⟨metadata, hmetadata, h⟩ := Fallible.bind_eq_ok_iff.1 h
    obtain ⟨sets, hsets, h⟩ := Fallible.bind_eq_ok_iff.1 h
    cases h
    refine ⟨rfl, ⟨metadata, readFile_eq_ok_iff.1 hmetadata, rfl⟩, ?_⟩
    exact ⟨_, sets, hsorted.imp Text.bytesLt_iff.2, fun _ => mem_imageSetFiles,
      readImageSets_eq_ok_iff.1 hsets, rfl⟩
  · rintro ⟨hrequested, ⟨metadata, hmetadata, heq⟩, files, sets, hfiles, hmem, hsets, himageSets⟩
    -- The order and the members leave no choice of the files.
    have hchoice : files = imageSetFiles fs (imageSetDirectory directory environment) :=
      Text.eq_of_increasing id (hfiles.imp Text.bytesLt_iff.1) hsorted
        fun name => (hmem name).trans mem_imageSetFiles.symm
    rw [hchoice] at hsets
    refine Fallible.bind_eq_ok_iff.2 ⟨metadata, readFile_eq_ok_iff.2 hmetadata, ?_⟩
    refine Fallible.bind_eq_ok_iff.2 ⟨sets, readImageSets_eq_ok_iff.2 hsets, ?_⟩
    rw [← hrequested, ← heq, ← himageSets]

/-- Loading fails with the first defect in reading order, and with no other error. -/
theorem load_eq_error_iff {e : LoadError} :
    load fs directory environment = .error e ↔ Blocks fs directory environment e := by
  have hsorted := pairwise_imageSetFiles hfs (imageSetDirectory directory environment)
  rw [load_eq, Fallible.bind_eq_error_iff, readFile_eq_error_iff]
  constructor
  · rintro (hdefect | ⟨metadata, hmetadata, h⟩)
    · exact .metadata hdefect
    · rcases Fallible.bind_eq_error_iff.1 h with h | ⟨sets, -, h⟩
      · obtain ⟨name, hname, herror, hearlier⟩ :=
          (Fallible.mapM_eq_error_iff_of_increasing hsorted).1 h
        refine .imageSet (readFile_eq_ok_iff.1 hmetadata) (mem_imageSetFiles.1 hname)
          (readFile_eq_error_iff.1 herror) fun earlier hmem hlt => ?_
        obtain ⟨vals, hvals⟩ :=
          hearlier earlier (mem_imageSetFiles.2 hmem) (Text.bytesLt_iff.1 hlt)
        exact ⟨vals, readFile_eq_ok_iff.1 hvals⟩
      · cases h
  · intro h
    cases h with
    | metadata hdefect => exact .inl hdefect
    | @imageSet metadata name hmetadata hname hdefect hearlier =>
      refine .inr ⟨metadata, readFile_eq_ok_iff.2 hmetadata, ?_⟩
      refine Fallible.bind_eq_error_iff.2 (.inl ?_)
      refine (Fallible.mapM_eq_error_iff_of_increasing hsorted).2
        ⟨name, mem_imageSetFiles.2 hname, hdefect.readFile_eq, fun earlier hmem hlt => ?_⟩
      obtain ⟨vals, hvals⟩ :=
        hearlier earlier (mem_imageSetFiles.1 hmem) (Text.bytesLt_iff.2 hlt)
      exact ⟨vals, readFile_eq_ok_iff.2 hvals⟩

end Proper

end Load

/-! ### What else may change -/

theorem readFile_congr {fs fs' : FileSystem} {schema : Schema} {path : String}
    (h : fs'.readText path = fs.readText path) :
    readFile fs' schema path = readFile fs schema path := by
  rw [readFile, readFile, h]

theorem load_relisted {fs fs' : FileSystem} (h : fs.Relisted fs') (directory : String)
    (environment : Environment) :
    load fs' directory environment = load fs directory environment := by
  have hfile : ∀ schema path, readFile fs' schema path = readFile fs schema path :=
    fun schema path => readFile_congr (FileSystem.readText_relisted h path)
  have hfiles : ∀ parent, imageSetFiles fs' parent = imageSetFiles fs parent := by
    intro parent
    simp only [imageSetFiles, FileSystem.filesWith, FileSystem.names_relisted h,
      FileSystem.isFile_relisted h]
  rw [load_eq, load_eq, hfiles]
  simp only [readImageSets, hfile]

/-- Files that loading does not read have no influence, whatever they hold. -/
theorem load_of_sameSources {fs fs' : FileSystem} (hfs : fs.root.Proper) (hfs' : fs'.root.Proper)
    {directory : String} {environment : Environment}
    (h : SameSources fs fs' directory environment) :
    load fs' directory environment = load fs directory environment := by
  have hsame : imageSetFiles fs' (imageSetDirectory directory environment) =
      imageSetFiles fs (imageSetDirectory directory environment) := by
    refine Text.eq_of_increasing id (pairwise_imageSetFiles hfs' _)
      (pairwise_imageSetFiles hfs _) fun name => ?_
    rw [mem_imageSetFiles, mem_imageSetFiles, isImageSetFile_iff hfs', isImageSetFile_iff hfs]
    refine and_congr_right fun hn => and_congr_right fun hextension => ?_
    rw [h.isFile name hn hextension]
  have hsets : ∀ name ∈ imageSetFiles fs (imageSetDirectory directory environment),
      readFile fs' ImageSet.schema (Path.join (imageSetDirectory directory environment) name) =
        readFile fs ImageSet.schema
          (Path.join (imageSetDirectory directory environment) name) := by
    intro name hname
    obtain ⟨hn, hextension, hfile⟩ := (isImageSetFile_iff hfs).1 (mem_imageSetFiles.1 hname)
    exact readFile_congr (h.readText name hn hextension hfile)
  rw [load_eq, load_eq, hsame, readFile_congr h.metadata]
  simp only [readImageSets, Fallible.mapM_congr_left hsets]

/-- What loading comes to: which files it reads, in which order, and which one it blames. -/
theorem load_files {fs : FileSystem} (hfs : fs.root.Proper) (directory : String)
    (environment : Environment) :
    let parent := imageSetDirectory directory environment
    let result := load fs directory environment
    ((∃ manifest, result = .ok manifest) ↔
      (∃ vals, Decodes fs AddonMetadata.schema (metadataPath directory environment) vals) ∧
      ∀ name, IsImageSetFile fs parent name →
        ∃ vals, Decodes fs ImageSet.schema (Path.join parent name) vals) ∧
    (∀ manifest, result = .ok manifest ↔ Lies fs directory environment manifest) ∧
    (∀ manifest, result = .ok manifest → fs.isDirectory parent = false →
      manifest.imageSets = []) ∧
    (∀ e, result = .error e ↔ Blocks fs directory environment e) ∧
    (∀ schema path e, Defect fs schema path e →
      (e = .fileNotFound path ↔ fs.find path = .error .notFound) ∧
      ((∃ source, e = .yaml path source) ↔ ∃ text, fs.readText path = .ok text) ∧
      ((∃ source, e = .io path source) ↔
        fs.find path ≠ .error .notFound ∧ ∀ text, fs.readText path ≠ .ok text)) ∧
    (∀ fs', fs.Relisted fs' → load fs' directory environment = result) ∧
    (∀ fs', fs'.root.Proper → SameSources fs fs' directory environment →
      load fs' directory environment = result) := by
  intro parent result
  refine ⟨exists_load_iff, fun manifest => load_eq_ok_iff hfs,
    fun manifest hload => imageSets_of_not_isDirectory hload, fun e => load_eq_error_iff hfs,
    fun schema path e => Defect.kind, ?_, ?_⟩
  · intro fs' hrelisted
    exact load_relisted hrelisted directory environment
  · intro fs' hfs' hsources
    exact load_of_sameSources hfs hfs' hsources

/-! ### An addon with two image sets -/

/-- The directory of the addon, where the files that are not read hold some other text. -/
def twoSets (other : String) : FileSystem where
  root := .directory [
    ("addonimagesets", .directory [
      ("production", .directory [("a.yaml", .file other.toUTF8)]),
      ("stage", .directory [
        (".yaml", .file other.toUTF8),
        ("README.md", .file other.toUTF8),
        ("a.yml", .file "name: a.v1.0.0\nindexImage: i\n".toUTF8),
        ("b.yaml", .file "name: a.v1.1.0\nindexImage: i\n".toUTF8),
        ("c.yaml", .directory [("d.yaml", .file other.toUTF8)])])]),
    ("metadata", .directory [
      ("stage", .directory [("addon.yaml", .file "id: a\noperatorName: a\n".toUTF8)])])]
  workingDirectory := none

section TwoSets

variable (other : String)

theorem proper_twoSets : (twoSets other).root.Proper := by
  have hname : ∀ name ∈ ["addonimagesets", "production", "a.yaml", "stage", ".yaml", "README.md",
      "a.yml", "b.yaml", "c.yaml", "d.yaml", "metadata", "addon.yaml"], Path.IsName name := by
    intro name hname
    have hcheck : name ≠ "" ∧ '/' ∉ name.toList ∧ name ≠ "." ∧ name ≠ ".." := by
      revert name
      decide
    exact ⟨hcheck.1, hcheck.2.1, hcheck.2.2.1, hcheck.2.2.2⟩
  constructor
  · simp [twoSets, FileTree.distinct_directory_iff, FileTree.Distinct.file]
  · simp only [List.forall_mem_cons] at hname
    simp [twoSets, FileTree.named_directory_iff, FileTree.Named.file, hname]

theorem isImageSetFile_twoSets {name : String} :
    IsImageSetFile (twoSets other) (imageSetDirectory "/" .stage) name ↔
      name ∈ ["a.yml", "b.yaml"] := by
  have hfind : ∃ entries, (twoSets other).find (imageSetDirectory "/" .stage) =
      .ok (.directory entries) ∧
        entries.map (·.1) = [".yaml", "README.md", "a.yml", "b.yaml", "c.yaml"] := ⟨_, rfl, rfl⟩
  obtain ⟨entries, hfind, hentries⟩ := hfind
  have hsorted : (entries.map (·.1)).Pairwise (· ≤ ·) := by
    rw [hentries]
    decide
  rw [← mem_imageSetFiles, imageSetFiles, FileSystem.filesWith,
    FileSystem.names_of_sorted hfind hsorted, hentries]
  exact Iff.of_eq rfl

theorem sameSources_twoSets (other' : String) :
    SameSources (twoSets other) (twoSets other') "/" .stage := by
  have hfile : ∀ text name, Path.IsName name → Path.EndsIn ["yaml", "yml"] name →
      ((twoSets text).isFile (Path.join (imageSetDirectory "/" .stage) name) = true ↔
        name ∈ ["a.yml", "b.yaml"]) := by
    intro text name hn hextension
    rw [← isImageSetFile_twoSets text, isImageSetFile_iff (proper_twoSets text)]
    simp only [hn, hextension, true_and]
  constructor
  · rfl
  · intro name hn hextension
    rw [Bool.eq_iff_iff, hfile other' name hn hextension, hfile other name hn hextension]
  · intro name hn hextension path hisFile
    have hname := (hfile other name hn hextension).1 hisFile
    have hsame : ∀ name ∈ ["a.yml", "b.yaml"],
        (twoSets other').find (Path.join (imageSetDirectory "/" .stage) name) =
          (twoSets other).find (Path.join (imageSetDirectory "/" .stage) name) := by
      simp only [List.forall_mem_cons]
      exact ⟨rfl, rfl, nofun⟩
    rw [FileSystem.readText, FileSystem.readText, hsame name hname]

theorem lies_twoSets : ∃ manifest, Lies (twoSets other) "/" .stage manifest ∧
    manifest.imageSets.map (·.name) = ["a.v1.0.0", "a.v1.1.0"] := by
  have hmetadata : (AddonMetadata.schema.ofYaml
      "id: a\noperatorName: a\n").toOption.isSome = true := by
    decide +kernel
  have hfirst : (ImageSet.schema.ofYaml "name: a.v1.0.0\nindexImage: i\n").toOption.map
      (fun vals => (ImageSet.ofVals vals).name) = some "a.v1.0.0" := by
    decide +kernel
  have hsecond : (ImageSet.schema.ofYaml "name: a.v1.1.0\nindexImage: i\n").toOption.map
      (fun vals => (ImageSet.ofVals vals).name) = some "a.v1.1.0" := by
    decide +kernel
  obtain ⟨metadata, hmetadata⟩ := Fallible.exists_ok_of_isSome hmetadata
  obtain ⟨first, hfirst, hfirstName⟩ := Option.map_eq_some_iff.1 hfirst
  obtain ⟨second, hsecond, hsecondName⟩ := Option.map_eq_some_iff.1 hsecond
  refine ⟨⟨.stage, .ofVals metadata, [first, second].map ImageSet.ofVals⟩, ?_, ?_⟩
  · refine ⟨rfl, ⟨metadata, ⟨_, rfl, hmetadata⟩, rfl⟩, ["a.yml", "b.yaml"], [first, second],
      ?_, fun name => (isImageSetFile_twoSets other).symm, ?_, rfl⟩
    · exact List.pairwise_pair.2 (Text.bytesLt_iff.2 (by decide))
    · have hfirst := Fallible.eq_ok_of_toOption hfirst
      have hsecond := Fallible.eq_ok_of_toOption hsecond
      exact .cons ⟨_, rfl, hfirst⟩ (.cons ⟨_, rfl, hsecond⟩ .nil)
  · simp [hfirstName, hsecondName]

end TwoSets

theorem load_files_twoSets :
    ((twoSets "").root.Proper ∧ (twoSets "[").root.Proper ∧
      SameSources (twoSets "") (twoSets "[") "/" .stage) ∧
    ∃ manifest, load (twoSets "") "/" .stage = .ok manifest ∧
      load (twoSets "[") "/" .stage = .ok manifest ∧
      manifest.imageSets.map (·.name) = ["a.v1.0.0", "a.v1.1.0"] := by
  have hproper := proper_twoSets ""
  have hproper' := proper_twoSets "["
  have hsources := sameSources_twoSets "" "["
  obtain ⟨manifest, hlies, hnames⟩ := lies_twoSets ""
  obtain ⟨-, hok, -, -, -, -, hframe⟩ := load_files hproper "/" .stage
  refine ⟨⟨hproper, hproper', hsources⟩, manifest, (hok manifest).2 hlies, ?_, hnames⟩
  rw [hframe (twoSets "[") hproper' hsources]
  exact (hok manifest).2 hlies

end Manifest

end AddonLint
