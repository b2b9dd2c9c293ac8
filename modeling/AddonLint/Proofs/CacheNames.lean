import AddonLint.Proofs.CachePlaces
import AddonLint.Proofs.ReferenceParts

/-!
# Index images that share a directory

The directory of an index image still shows its name and its tag. What it no longer shows is
whether a digest stands there, or a tag that is written like one. So two images share a directory
only if one has a digest and the other such a tag.
-/
namespace AddonLint.ImageReference

/-- Lower-case letters and the hyphen. -/
def indexNameChars : List (Char × Char) := [('a', 'z'), ('-', '-')]

/-- The hexadecimal digits of a digest. -/
structure IsDigits (digits : String) : Prop where
  within : ∀ c ∈ digits.toList, within digestChars c = true
  length : digits.length = 64

/-- What may follow the name of an index image. -/
inductive Suffix where
  | none
  | tag (name : String) (word : IsWord tagStart tagChars name)
  | digest (digits : String) (isDigits : IsDigits digits)

namespace Suffix

def text : Suffix → String
  | none => ""
  | tag name _ => ":" ++ name
  | digest digits _ => "@sha256:" ++ digits

/-- The tag that stands in the directory name. -/
def label? : Suffix → Option String
  | none => .none
  | tag name _ => some name
  | digest digits _ => some ("sha256_" ++ digits)

end Suffix

/-- An index image of the addon organisation. -/
structure IndexImage where
  name : String
  suffix : Suffix
  ne_empty : name ≠ ""
  within : ∀ c ∈ name.toList, within indexNameChars c = true

namespace IndexImage

def text (image : IndexImage) : String :=
  "quay.io/osd-addons/" ++ (image.name ++ image.suffix.text)

end IndexImage

/-! ### Directory names -/

theorem cacheName_append (s t : String) : cacheName (s ++ t) = cacheName s ++ cacheName t := by
  rw [← String.toList_inj, String.toList_append]
  simp only [toList_cacheName, String.toList_append, List.map_append]

/-- A text without separators is its own directory name. -/
theorem cacheName_of_within {ranges : List (Char × Char)} {s : String}
    (hranges : (['/', ':', '@'].all fun c => !within ranges c) = true)
    (hs : ∀ c ∈ s.toList, within ranges c = true) : cacheName s = s := by
  have hplain : ∀ c ∈ s.toList, cacheChar c = c := by
    intro c hc
    refine if_neg fun hseparator => ?_
    have hout := List.all_eq_true.mp hranges c (by simpa using hseparator)
    rw [hs c hc] at hout
    cases hout
  rw [← String.toList_inj, toList_cacheName, List.map_congr_left hplain, List.map_id']

namespace Suffix

/-- The end of the directory name. -/
def cached (suffix : Suffix) : String := suffix.label?.elim "" ("_" ++ ·)

theorem cacheName_text (suffix : Suffix) : cacheName suffix.text = suffix.cached := by
  cases suffix with
  | none => rfl
  | tag name hname =>
    have htag := hname.forall_within (by decide)
    change cacheName (":" ++ name) = "_" ++ name
    rw [cacheName_append, cacheName_of_within (by decide) htag]
    rfl
  | digest digits hdigits =>
    change cacheName ("@sha256:" ++ digits) = "_" ++ ("sha256_" ++ digits)
    rw [cacheName_append, cacheName_of_within (by decide) hdigits.within, ← String.append_assoc]
    rfl

theorem cached_inj {suffix suffix' : Suffix} :
    suffix.cached = suffix'.cached ↔ suffix.label? = suffix'.label? := by
  have hne (label : String) : "" ≠ "_" ++ label := fun h => by
    simpa using congrArg String.toList h
  unfold cached
  cases suffix.label? with
  | none =>
    cases suffix'.label? with
    | none => exact iff_of_true rfl rfl
    | some label' => exact iff_of_false (hne label') (Option.some_ne_none label').symm
  | some label =>
    cases suffix'.label? with
    | none => exact iff_of_false (hne label).symm (Option.some_ne_none label)
    | some label' => exact (String.append_right_inj "_").trans Option.some_inj.symm

/-- No name of an index image goes on into what follows it. -/
theorem head_cached (suffix : Suffix) :
    ∀ c ∈ suffix.cached.toList.head?, within indexNameChars c = false := by
  unfold cached
  cases suffix.label? with
  | none => exact nofun
  | some label =>
    change ∀ c ∈ ("_" ++ label).toList.head?, _
    rw [String.toList_append]
    rintro c ⟨⟩
    decide

/-- One of the suffixes is a digest, and the other one a tag that is written like it. -/
def Alike (suffix suffix' : Suffix) : Prop :=
  ∃ digits, IsDigits digits ∧
    (suffix.text = "@sha256:" ++ digits ∧ suffix'.text = ":sha256_" ++ digits ∨
      suffix.text = ":sha256_" ++ digits ∧ suffix'.text = "@sha256:" ++ digits)

/-- Besides equal suffixes only a digest and a tag written like it share a label. -/
theorem text_eq_or_alike {suffix suffix' : Suffix} (h : suffix.label? = suffix'.label?) :
    suffix.text = suffix'.text ∨ Alike suffix suffix' := by
  cases suffix with
  | none =>
    cases suffix' with
    | none => exact .inl rfl
    | tag name hname => cases h
    | digest digits hdigits => cases h
  | tag name hname =>
    cases suffix' with
    | none => cases h
    | tag name' hname' =>
      obtain rfl : name = name' := Option.some_inj.mp h
      exact .inl rfl
    | digest digits hdigits =>
      obtain rfl : name = "sha256_" ++ digits := Option.some_inj.mp h
      exact .inr ⟨digits, hdigits, .inr ⟨String.append_assoc.symm, rfl⟩⟩
  | digest digits hdigits =>
    cases suffix' with
    | none => cases h
    | tag name hname =>
      obtain rfl : "sha256_" ++ digits = name := Option.some_inj.mp h
      exact .inr ⟨digits, hdigits, .inl ⟨rfl, String.append_assoc.symm⟩⟩
    | digest digits' hdigits' =>
      obtain rfl : digits = digits' := (String.append_right_inj "sha256_").mp (Option.some_inj.mp h)
      exact .inl rfl

/-- Both marks of a digest lead to the same text. -/
theorem cached_eq_of_texts {suffix suffix' : Suffix} {digits : String}
    (h : suffix.text = "@sha256:" ++ digits) (h' : suffix'.text = ":sha256_" ++ digits) :
    suffix.cached = suffix'.cached := by
  have hmark : cacheName "@sha256:" = cacheName ":sha256_" := by decide
  rw [← cacheName_text, ← cacheName_text, h, h', cacheName_append, cacheName_append, hmark]

/-- Two suffixes have one label without being the same text exactly if they are alike. -/
theorem alike_iff {suffix suffix' : Suffix} :
    Alike suffix suffix' ↔ suffix.label? = suffix'.label? ∧ suffix.text ≠ suffix'.text := by
  constructor
  · have hmarks (digits : String) : "@sha256:" ++ digits ≠ ":sha256_" ++ digits := fun h =>
      absurd ((String.append_left_inj digits).mp h) (by decide)
    rintro ⟨digits, -, ⟨h, h'⟩ | ⟨h, h'⟩⟩
    · exact ⟨cached_inj.mp (cached_eq_of_texts h h'), by rw [h, h']; exact hmarks digits⟩
    · refine ⟨(cached_inj.mp (cached_eq_of_texts h' h)).symm, ?_⟩
      rw [h, h']
      exact (hmarks digits).symm
  · rintro ⟨hlabel, hne⟩
    exact (text_eq_or_alike hlabel).resolve_left hne

end Suffix

namespace IndexImage

variable {r s : IndexImage}

theorem text_eq_iff_of_name (h : r.name = s.name) :
    r.text = s.text ↔ r.suffix.text = s.suffix.text := by
  unfold text
  rw [h, String.append_right_inj, String.append_right_inj]

theorem cacheName_text (image : IndexImage) :
    cacheName image.text = "quay.io_osd-addons_" ++ (image.name ++ image.suffix.cached) := by
  have hhost : cacheName "quay.io/osd-addons/" = "quay.io_osd-addons_" := by decide
  unfold text
  rw [cacheName_append "quay.io/osd-addons/", cacheName_append image.name,
    Suffix.cacheName_text image.suffix, cacheName_of_within (by decide) image.within, hhost]

/-- A directory name tells the name of the image and the label. -/
theorem cacheName_eq_iff :
    cacheName r.text = cacheName s.text ↔ r.name = s.name ∧ r.suffix.label? = s.suffix.label? := by
  rw [cacheName_text, cacheName_text, String.append_right_inj, ← Suffix.cached_inj]
  constructor
  · intro h
    -- The underscore in front of a label does not occur in names, so a name ends in one place.
    obtain ⟨hname, hsuffix⟩ := append_unique r.within s.within r.suffix.head_cached
      s.suffix.head_cached (by simpa only [String.toList_append] using congrArg String.toList h)
    exact ⟨hname, String.toList_inj.mp hsuffix⟩
  · rintro ⟨hname, hsuffix⟩
    rw [hname, hsuffix]

/-- Two images share a directory name without being the same image. -/
theorem shares_cacheName_iff :
    cacheName r.text = cacheName s.text ∧ r.text ≠ s.text ↔
      r.name = s.name ∧ Suffix.Alike r.suffix s.suffix := by
  rw [cacheName_eq_iff, Suffix.alike_iff, and_assoc]
  refine and_congr_right fun hname => and_congr_right fun _ => ?_
  rw [Ne, Ne, text_eq_iff_of_name hname]

end IndexImage

end AddonLint.ImageReference

namespace AddonLint.Cache

open ImageReference (cacheName IndexImage Suffix specials isName_cacheName_iff)

variable {cache image image' operator : String}

/-- The place of a directory shows the whole name of it. -/
theorem place_imageDirectory_eq_iff (h : image ∉ specials) (h' : image' ∉ specials)
    (start : List String) :
    Path.place start (imageDirectory cache image) = Path.place start (imageDirectory cache image') ↔
      cacheName image = cacheName image' := by
  unfold imageDirectory
  rw [Path.place_join_name _ _ (isName_cacheName_iff.mpr h),
    Path.place_join_name _ _ (isName_cacheName_iff.mpr h'), List.append_cancel_left_eq,
    List.singleton_inj]

/-- Images that share a directory have the same bundles. -/
theorem extract_eq_ok_of_cacheName_eq {fs : FileSystem} {bundles : List Bundle}
    (h : cacheName image = cacheName image')
    (hbundles : extract fs cache image operator = .ok bundles) :
    extract fs cache image' operator = .ok bundles := by
  have hshared : imageDirectory cache image' = imageDirectory cache image :=
    congrArg (Path.join cache) h.symm
  cases hdirectory : fs.isDirectory (imageDirectory cache image) with
  | false =>
    rw [extract_of_not_isDirectory hdirectory] at hbundles
    cases hbundles
  | true =>
    have hdirectory' : fs.isDirectory (imageDirectory cache image') = true := by
      rw [hshared, hdirectory]
    rw [extract_of_isDirectory hdirectory] at hbundles
    rw [extract_of_isDirectory hdirectory', hshared]
    obtain ⟨found, hfound, hown⟩ := Fallible.bind_eq_ok_iff.mp hbundles
    refine Fallible.bind_eq_ok_iff.mpr ⟨found, hfound, ?_⟩
    cases hof : ofOperator operator found with
    | nil =>
      rw [hof] at hown
      cases hown
    | cons b bs =>
      rw [hof] at hown
      exact hown

theorem text_notMem_specials (image : IndexImage) : image.text ∉ specials := by
  have hnone : ∀ special ∈ specials, '/' ∉ special.toList := by decide
  refine fun h => hnone _ h ?_
  unfold IndexImage.text
  rw [String.toList_append]
  exact List.mem_append_left _ (by decide)

/-- Two index images share a directory of the cache exactly if they have one name, and one of them
has a digest where the other has a tag that is written like it. What is extracted for the one is
then extracted for the other, too. -/
theorem shared_directories (r s : IndexImage) :
    (cacheName r.text = cacheName s.text ∧ r.text ≠ s.text ↔
        r.name = s.name ∧ Suffix.Alike r.suffix s.suffix) ∧
      (r.text ≠ s.text → ¬(r.name = s.name ∧ Suffix.Alike r.suffix s.suffix) →
        ∀ cache start, Path.place start (imageDirectory cache r.text) ≠
          Path.place start (imageDirectory cache s.text)) ∧
      (r.name = s.name ∧ Suffix.Alike r.suffix s.suffix → ∀ cache,
        imageDirectory cache r.text = imageDirectory cache s.text ∧
          ∀ fs operator bundles, extract fs cache r.text operator = .ok bundles →
            extract fs cache s.text operator = .ok bundles) := by
  have hshares := IndexImage.shares_cacheName_iff (r := r) (s := s)
  refine ⟨hshares, fun hne hapart cache start hplace => hapart (hshares.mp ⟨?_, hne⟩), ?_⟩
  · exact (place_imageDirectory_eq_iff (text_notMem_specials r) (text_notMem_specials s) start).mp
      hplace
  · intro halike cache
    obtain ⟨hname, -⟩ := hshares.mpr halike
    exact ⟨congrArg (Path.join cache) hname, fun fs operator bundles =>
      extract_eq_ok_of_cacheName_eq hname⟩

def digits : String := "0123456789abcdef0123456789abcdef0123456789abcdef0123456789abcdef"

theorem isDigits_digits : ImageReference.IsDigits digits := by
  constructor
  case within => exact List.all_eq_true.mp (by decide +kernel)
  case length => decide +kernel

def byDigest : IndexImage where
  name := "index"
  suffix := .digest digits isDigits_digits
  ne_empty := by decide
  within := List.all_eq_true.mp (by decide)

/-- The same index image by a tag that is written like its digest. -/
def byTag : IndexImage :=
  { byDigest with
    suffix := .tag ("sha256_" ++ digits) ⟨'s', ("ha256_" ++ digits).toList, by decide +kernel,
      by decide, List.all_eq_true.mp (by decide +kernel)⟩ }

/-- The same index image without either. -/
def untagged : IndexImage := { byDigest with suffix := .none }

/-- The image with a digest shares its directory with the other tag, and not with the image that has
neither. -/
theorem shared_directories_digest :
    byDigest.text = "quay.io/osd-addons/index@sha256:" ++ digits ∧
      byTag.text = "quay.io/osd-addons/index:sha256_" ++ digits ∧
      byDigest.text ≠ byTag.text ∧ byDigest.text ≠ untagged.text ∧
      (∀ cache, imageDirectory cache byDigest.text = imageDirectory cache byTag.text) ∧
      ∀ cache start, Path.place start (imageDirectory cache byDigest.text) ≠
        Path.place start (imageDirectory cache untagged.text) := by
  have halike : Suffix.Alike byDigest.suffix byTag.suffix :=
    ⟨digits, isDigits_digits, .inl ⟨rfl, by decide +kernel⟩⟩
  have hapart : ¬Suffix.Alike byDigest.suffix untagged.suffix := by
    intro h
    cases (Suffix.alike_iff.mp h).1
  have hne : byDigest.text ≠ untagged.text := by decide +kernel
  obtain ⟨hshares, -, hsame⟩ := shared_directories byDigest byTag
  obtain ⟨-, hdistinct, -⟩ := shared_directories byDigest untagged
  exact ⟨by decide +kernel, by decide +kernel, (hshares.mpr ⟨rfl, halike⟩).2, hne,
    fun cache => (hsame ⟨rfl, halike⟩ cache).1, hdistinct hne fun h => hapart h.2⟩

end AddonLint.Cache
