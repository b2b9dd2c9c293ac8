import AddonLint.Proofs.ForeignBundles
import AddonLint.Proofs.Places
import AddonLint.Proofs.ReportedVersions

/-!
# Where a lookup in the cache leads

The directory of an index image lies right below the cache, and an extraction sees nothing but
what is in it. There are three exceptions: a reference that is empty or made of one or two points
names no entry of a directory, and leads to the cache itself or to the directory around it.
-/
namespace AddonLint

namespace ImageReference

/-- The references whose directories are no entries of the cache. -/
def specials : List String := ["", ".", ".."]

/-- The separators, and what is written for them. -/
def separators : List Char := ['/', ':', '@', '_']

theorem cacheChar_eq_iff {c d : Char} (hd : d ∉ separators) : cacheChar c = d ↔ c = d := by
  unfold cacheChar
  split
  · rename_i hc
    constructor
    · rintro rfl
      exact absurd (by decide) hd
    · rintro rfl
      rcases hc with rfl | rfl | rfl <;> exact absurd (by decide) hd
  · rfl

theorem map_cacheChar_eq_iff {cs ds : List Char} (hds : ∀ d ∈ ds, d ∉ separators) :
    cs.map cacheChar = ds ↔ cs = ds := by
  induction ds generalizing cs with
  | nil => exact List.map_eq_nil_iff
  | cons d ds ih =>
    obtain ⟨hd, hds⟩ := List.forall_mem_cons.mp hds
    cases cs with
    | nil => exact iff_of_false nofun nofun
    | cons c cs =>
      rw [List.map_cons, List.cons_eq_cons, List.cons_eq_cons, cacheChar_eq_iff hd, ih hds]

theorem toList_cacheName (image : String) :
    (cacheName image).toList = image.toList.map cacheChar := String.toList_ofList

/-- No directory name leads further down than the cache itself. -/
theorem no_slash_cacheName (image : String) : '/' ∉ (cacheName image).toList := by
  rw [toList_cacheName, List.mem_map]
  rintro ⟨c, -, hc⟩
  unfold cacheChar at hc
  split at hc
  · cases hc
  · rename_i hplain
    exact hplain (.inl hc)

/-- A name without separators and underscores is that of one reference only. -/
theorem cacheName_eq_iff {image name : String}
    (h : (name.toList.all fun d => d ∉ separators) = true) :
    cacheName image = name ↔ image = name := by
  have hplain : ∀ d ∈ name.toList, d ∉ separators := fun d hd =>
    of_decide_eq_true (List.all_eq_true.mp h d hd)
  rw [← String.toList_inj, toList_cacheName, map_cacheChar_eq_iff hplain, String.toList_inj]

/-- A reference has an entry of the cache as its directory, apart from three. -/
theorem isName_cacheName_iff {image : String} :
    Path.IsName (cacheName image) ↔ image ∉ specials := by
  have hempty : cacheName image = "" ↔ image = "" := cacheName_eq_iff (by decide)
  have hpoint : cacheName image = "." ↔ image = "." := cacheName_eq_iff (by decide)
  have hpoints : cacheName image = ".." ↔ image = ".." := cacheName_eq_iff (by decide)
  have hspecial : image ∉ specials ↔
      cacheName image ≠ "" ∧ cacheName image ≠ "." ∧ cacheName image ≠ ".." := by
    simp only [specials, List.mem_cons, List.not_mem_nil, or_false, not_or, ne_eq, hempty, hpoint,
      hpoints]
  rw [hspecial]
  exact ⟨fun h => ⟨h.ne_empty, h.ne_dot, h.ne_dots⟩,
    fun h => ⟨h.1, no_slash_cacheName image, h.2.1, h.2.2⟩⟩

end ImageReference

namespace Cache

open ImageReference (cacheName no_slash_cacheName isName_cacheName_iff specials)

variable {fs fs' : FileSystem} {cache image operator : String}

/-! ### The directory of an image -/

theorem imageDirectory_eq_join_iff {name : String} (h : '/' ∉ name.toList) :
    imageDirectory cache image = Path.join cache name ↔ cacheName image = name :=
  Path.join_inj (no_slash_cacheName image) h

theorem exists_imageDirectory_eq_join_iff :
    (∃ name, Path.IsName name ∧ imageDirectory cache image = Path.join cache name) ↔
      image ∉ specials := by
  rw [← isName_cacheName_iff]
  constructor
  · rintro ⟨name, hname, hdirectory⟩
    rwa [(imageDirectory_eq_join_iff hname.no_slash).mp hdirectory]
  · exact fun h => ⟨cacheName image, h, rfl⟩

/-! ### What an extraction sees -/

/-- Reading a bundle depends only on what lies below the directory of its image. -/
theorem readBundle_of_find_eq (hfs : fs.root.Named) {bundle parent : String}
    (hp : Path.IsOpen parent) (hn : Path.IsName bundle) (h : fs'.find parent = fs.find parent) :
    readBundle fs' parent bundle = readBundle fs parent bundle := by
  have hmetadata : Path.IsName "metadata" := by constructor <;> decide
  have hannotations : Path.IsName "annotations.yaml" := by constructor <;> decide
  have hmanifests : Path.IsName "manifests" := by constructor <;> decide
  have hopen := Path.isOpen_join parent hn
  have hbundle := FileSystem.find_join_congr hp hn h
  have hin := FileSystem.find_join_congr hopen hmetadata hbundle
  refine readBundle_of_same (FileSystem.sameFile_of_find_eq ?_)
    (FileSystem.sameFiles_of_find_eq hfs ?_ ?_)
  · exact FileSystem.find_join_congr (Path.isOpen_join _ hmetadata) hannotations hin
  · exact Path.isOpen_join _ hmanifests
  · exact FileSystem.find_join_congr hopen hmanifests hbundle

/-- An extraction sees nothing but what is in the directory of the image. -/
theorem extract_of_find_eq (hfs : fs.root.Named) (himage : image ∉ specials)
    (h : fs'.find (imageDirectory cache image) = fs.find (imageDirectory cache image)) :
    extract fs' cache image operator = extract fs cache image operator := by
  have hopen : Path.IsOpen (imageDirectory cache image) :=
    Path.isOpen_join cache (isName_cacheName_iff.mpr himage)
  have hdirectory := FileSystem.isDirectory_of_find_eq h
  have hnames := FileSystem.names_of_find_eq h
  have hname {name : String} (hlisted : name ∈ fs.names (imageDirectory cache image)) :
      Path.IsName name := FileSystem.isName_of_mem_names hfs hlisted
  cases hfound : fs.isDirectory (imageDirectory cache image) with
  | false =>
    rw [extract_of_not_isDirectory hfound, extract_of_not_isDirectory (hdirectory.trans hfound)]
  | true =>
    have hbundles : bundleNames fs' (imageDirectory cache image) =
        bundleNames fs (imageDirectory cache image) := by
      unfold bundleNames
      rw [hnames]
      refine List.filter_congr fun name hlisted => ?_
      rw [FileSystem.isDirectory_of_find_eq
        (FileSystem.find_join_congr hopen (hname hlisted) h)]
    have hread : ∀ name ∈ bundleNames fs (imageDirectory cache image),
        readBundle fs' (imageDirectory cache image) name =
          readBundle fs (imageDirectory cache image) name := fun name hmem =>
      readBundle_of_find_eq hfs hopen (hname (mem_bundleNames.mp hmem).1) h
    rw [extract_of_isDirectory hfound, extract_of_isDirectory (hdirectory.trans hfound), hbundles,
      Fallible.mapM_congr_left hread]

/-! ### The images of a manifest -/

open Resolution in
/-- A selected image stands in an image set, or in the metadata between blanks. -/
theorem source_of_select {m : Manifest} {request : VersionRequest} {artifact : Artifact}
    (h : m.select request = .ok artifact) :
    (∃ set ∈ m.imageSets, artifact = .imageSet set) ∨
      ∃ image, Declares m.metadata.indexImage image ∧ artifact = .staticIndexImage image := by
  rcases static_or_chosen h with ⟨image, rfl, rfl, hnone⟩ | ⟨v, set, hchosen, rfl⟩
  · rw [select_of_undeclared hnone] at h
    cases himage : declared? m.metadata.indexImage with
    | none =>
      rw [himage] at h
      cases h
    | some found =>
      rw [himage] at h
      cases h
      exact .inr ⟨image, declared?_eq_some_iff.mp himage, rfl⟩
  · have hmem : set ∈ carriers m.imageSets v := hchosen.only ▸ List.mem_cons_self
    exact .inl ⟨set, (List.mem_filter.mp hmem).1, rfl⟩

/-- Where the lookup of a selected image leads: one step below the cache and nowhere else, but for
the three references that name no entry. Of these the empty one leaves the lookup in the cache, as
does a point, and two points take it to the directory around the cache; the empty one can only come
from an image set. -/
theorem lookup_places {m : Manifest} {request : VersionRequest} {artifact : Artifact}
    (h : m.select request = .ok artifact) (cache : String) :
    let image := artifact.indexImage
    let directory := imageDirectory cache image
    ((∃ name, Path.IsName name ∧ directory = Path.join cache name) ↔
        image ∉ ["", ".", ".."]) ∧
      (∀ name, Path.IsName name → directory = Path.join cache name →
        (∀ start, Path.place start directory = Path.place start cache ++ [name]) ∧
        ∀ fs fs' : FileSystem, fs.root.Named → fs'.find directory = fs.find directory →
          ∀ operator, extract fs' cache image operator = extract fs cache image operator) ∧
      (image = "" ∨ image = "." →
        ∀ start, Path.place start directory = Path.place start cache) ∧
      (image = ".." →
        ∀ start, Path.place start directory = (Path.place start cache).dropLast) ∧
      (image = "" → ∃ set ∈ m.imageSets, artifact = .imageSet set) := by
  intro image directory
  have hplain {name : String} (hname : '/' ∉ name.toList)
      (hchars : (name.toList.all fun d => d ∉ ImageReference.separators) = true)
      (himage : image = name) :
      directory = Path.join cache name :=
    (imageDirectory_eq_join_iff hname).mpr ((ImageReference.cacheName_eq_iff hchars).mpr himage)
  refine ⟨exists_imageDirectory_eq_join_iff, ?_, ?_, ?_, ?_⟩
  · intro name hname hdirectory
    have himage : image ∉ specials :=
      exists_imageDirectory_eq_join_iff.mp ⟨name, hname, hdirectory⟩
    refine ⟨fun start => ?_, fun fs fs' hfs hfind operator => extract_of_find_eq hfs himage hfind⟩
    rw [hdirectory, Path.place_join_name start cache hname]
  · rintro (himage | himage) start
    · rw [hplain (by decide) (by decide) himage, Path.place_join_empty]
    · rw [hplain (by decide) (by decide) himage, Path.place_join_dot]
  · intro himage start
    rw [hplain (by decide) (by decide) himage, Path.place_join_dots]
  · intro himage
    rcases source_of_select h with hset | ⟨found, hdeclares, rfl⟩
    · exact hset
    · exact absurd himage hdeclares.ne_empty

/-- The metadata of an addon that comes as an index image and installs the operator `own`. -/
def fixedImage (image : String) : Manifest where
  environment := .stage
  metadata := { AddonMetadata.ofNames "a" "own" with indexImage := some image }
  imageSets := []

theorem select_fixedImage {image : String} (h : Resolution.Declares (some image) image) :
    (fixedImage image).select .declared = .ok (.staticIndexImage image) := by
  have hnone : Resolution.Undeclared (fixedImage image).metadata.addonImageSetVersion := nofun
  have himage : Resolution.declared? (fixedImage image).metadata.indexImage = some image :=
    Resolution.declared?_eq_some_iff.mpr h
  rw [Resolution.select_of_undeclared hnone, himage]

theorem lookup_places_tagged :
    let image := "quay.io/osd-addons/a-index:v1"
    (fixedImage image).select .declared = .ok (.staticIndexImage image) ∧
      ∀ start, Path.place start (imageDirectory "/cache/" image) =
        Path.place start "/cache/" ++ ["quay.io_osd-addons_a-index_v1"] := by
  intro image
  have hselect : (fixedImage image).select .declared = .ok (.staticIndexImage image) :=
    select_fixedImage (Resolution.declared?_eq_some_iff.mp (by decide +kernel))
  have hname : Path.IsName "quay.io_osd-addons_a-index_v1" := by constructor <;> decide
  obtain ⟨-, hplace, -⟩ := lookup_places hselect "/cache/"
  exact ⟨hselect, (hplace _ hname (by decide)).1⟩

/-! ### A lookup outside of the cache -/

/-- A bundle beside an empty cache. -/
def besideCache : FileSystem where
  root := .directory [("b", bundleTree "own" "kind: A\n"), ("cache", .directory [])]
  workingDirectory := none

theorem bundleNames_besideCache : bundleNames besideCache "/cache/.." = ["b", "cache"] := by
  have hfind : besideCache.find "/cache/.." =
      .ok (.directory [("b", bundleTree "own" "kind: A\n"), ("cache", .directory [])]) := rfl
  have hnames : besideCache.names "/cache/.." = ["b", "cache"] :=
    FileSystem.names_of_sorted hfind (by simp)
  rw [bundleNames, hnames]
  rfl

theorem readManifests_besideCache :
    ∃ manifests, readManifests besideCache (manifestsPath (Path.join "/cache/.." "b")) =
      .ok manifests := by
  refine exists_readManifests fun file hfile => ?_
  obtain ⟨tree, hfind⟩ : ∃ tree, besideCache.find (manifestsPath (Path.join "/cache/.." "b")) =
      .ok (.directory [("m.yaml", tree)]) := ⟨_, rfl⟩
  have hnames : besideCache.names (manifestsPath (Path.join "/cache/.." "b")) = ["m.yaml"] :=
    FileSystem.names_of_sorted hfind (List.pairwise_singleton _ _)
  have hlisted := hfile.1
  rw [hnames, List.mem_singleton] at hlisted
  subst hlisted
  obtain ⟨values, hvalues⟩ : ∃ values, Json.ofYamlStream "kind: A\n" = .ok values :=
    Fallible.exists_ok_of_isSome (by decide +kernel)
  refine ⟨values, readManifestFile_eq_ok_iff.1 ?_⟩
  refine Fallible.bind_eq_ok_iff.2 ⟨"kind: A\n", rfl, ?_⟩
  exact Fallible.mapError_eq_ok_iff.2 hvalues

/-- An index image of two points is looked up in the directory around the cache, and the bundle
there is taken for one of the image, with nothing at all in the cache. -/
theorem lookup_besideCache :
    (fixedImage "..").select .declared = .ok (.staticIndexImage "..") ∧
      (¬∃ name, Path.IsName name ∧ imageDirectory "/cache" ".." = Path.join "/cache" name) ∧
      besideCache.find "/cache" = .ok (.directory []) ∧
      ∃ bundle, bundle.name = "b" ∧ extract besideCache "/cache" ".." "own" = .ok [bundle] := by
  have hselect : (fixedImage "..").select .declared = .ok (.staticIndexImage "..") :=
    select_fixedImage (Resolution.declared?_eq_some_iff.mp (by decide +kernel))
  refine ⟨hselect, fun h => absurd (by decide) (exists_imageDirectory_eq_join_iff.mp h), rfl, ?_⟩
  obtain ⟨own, hown, hpackage⟩ := ofYaml_packageText "own" (by decide)
  obtain ⟨manifests, hmanifests⟩ := readManifests_besideCache
  have hannotated : Annotated besideCache (Path.join "/cache/.." "b") own.1 :=
    ⟨_, own, rfl, hown, rfl⟩
  have hb : readBundle besideCache "/cache/.." "b" =
      .ok (some (bundleOf "b" "own" own.1 manifests)) := by
    rw [readBundle_of_annotated hannotated, hpackage, hmanifests]
    rfl
  have hcache : readBundle besideCache "/cache/.." "cache" = .ok none :=
    readBundle_of_not_isFile rfl
  have hdirectory : imageDirectory "/cache" ".." = "/cache/.." := by decide
  refine ⟨bundleOf "b" "own" own.1 manifests, rfl, ?_⟩
  rw [extract_of_isDirectory (by rw [hdirectory]; rfl), hdirectory, bundleNames_besideCache,
    List.mapM_cons, List.mapM_cons, hb, hcache]
  rfl

end Cache

end AddonLint
