import AddonLint.Proofs.FieldLists
import AddonLint.Proofs.Listings

/-!
# Paths of the entries of a directory

The path of an entry is that of its directory and one more step. So a file that is found at such
a path is listed in the directory, as long as its name is one that an entry can have.
-/
namespace AddonLint

namespace Path

/-- A name that an entry of a directory can have. -/
structure IsName (name : String) : Prop where
  ne_empty : name ≠ ""
  no_slash : '/' ∉ name.toList
  ne_dot : name ≠ "."
  ne_dots : name ≠ ".."

/-- A name that ends in a point and one of some extensions, with something before the point. -/
def EndsIn (extensions : List String) (name : String) : Prop :=
  ∃ stem, stem ≠ "" ∧ ∃ e ∈ extensions, name = stem ++ "." ++ e

theorem splitOn_eq_singleton_nil_iff {sep : Char} {cs : List Char} :
    cs.splitOn sep = [[]] ↔ cs = [] := by
  constructor
  · intro h
    have hjoin : List.intercalate [sep] (cs.splitOn sep) = cs := List.intercalate_splitOn sep
    rw [h] at hjoin
    exact hjoin.symm
  · rintro rfl
    rfl

/-- What is behind the last point counts if something stands before it. -/
theorem extension?_of_split {name : String} {stem e : List Char}
    (hname : name.toList = stem ++ '.' :: e) (he : '.' ∉ e) :
    extension? name = if stem = [] then none else some (String.ofList e) := by
  have hpieces : Text.cutAt '.' name.toList = stem.splitOn '.' ++ [e] := by
    rw [Text.cutAt_eq_splitOn, hname, List.splitOn_append_cons_self, List.splitOn_eq_singleton he]
  unfold extension?
  dsimp only
  rw [hpieces, List.getLast?_concat, List.dropLast_concat]
  by_cases hstem : stem = []
  · rw [if_pos hstem, hstem]
    rfl
  · rw [if_neg hstem]
    have hne : stem.splitOn '.' ≠ [] := List.splitOn_ne_nil _ _
    have hne' : stem.splitOn '.' ≠ [[]] := fun h => hstem (splitOn_eq_singleton_nil_iff.1 h)
    split
    · rename_i hnil
      exact absurd hnil hne
    · rename_i hnil
      exact absurd hnil hne'
    · rename_i hlast _ _
      rw [Option.some.inj hlast]
    · rename_i hlast
      cases hlast

theorem extension?_eq_none_of_not_mem {name : String} (h : '.' ∉ name.toList) :
    extension? name = none := by
  unfold extension?
  rw [Text.cutAt_eq_splitOn, List.splitOn_eq_singleton h]
  rfl

theorem exists_split_of_mem {cs : List Char} (h : '.' ∈ cs) :
    ∃ stem e, cs = stem ++ '.' :: e ∧ '.' ∉ e := by
  obtain ⟨behind, before, hsplit, hbehind⟩ := List.eq_append_cons_of_mem (List.mem_reverse.2 h)
  refine ⟨before.reverse, behind.reverse, ?_, fun hmem => hbehind (List.mem_reverse.1 hmem)⟩
  have hcs := congrArg List.reverse hsplit
  simpa using hcs

/-- The extension is what stands behind the last point, if something stands before it. -/
theorem extension?_eq_some_iff {name e : String} :
    extension? name = some e ↔
      ∃ stem, stem ≠ "" ∧ name = stem ++ "." ++ e ∧ '.' ∉ e.toList := by
  constructor
  · intro h
    by_cases hpoint : '.' ∈ name.toList
    · obtain ⟨stem, ext, hsplit, hext⟩ := exists_split_of_mem hpoint
      rw [extension?_of_split hsplit hext] at h
      split at h
      · cases h
      · rename_i hstem
        obtain rfl := Option.some.inj h
        refine ⟨String.ofList stem, fun hempty => ?_, ?_, ?_⟩
        · exact hstem (Text.ofList_eq_empty_iff.1 hempty)
        · rw [← String.toList_inj, hsplit]
          simp
        · rwa [String.toList_ofList]
    · rw [extension?_eq_none_of_not_mem hpoint] at h
      cases h
  · rintro ⟨stem, hstem, rfl, he⟩
    have hsplit : (stem ++ "." ++ e).toList = stem.toList ++ '.' :: e.toList := by simp
    rw [extension?_of_split hsplit he, if_neg (Text.toList_ne_nil hstem), String.ofList_toList]

theorem hasExtension_eq_true_iff {extensions : List String} {name : String} :
    hasExtension extensions name = true ↔ ∃ e ∈ extensions, extension? name = some e := by
  unfold hasExtension
  cases extension? name with
  | none => simp
  | some e => simp only [List.contains_iff_mem, Option.some.injEq, exists_eq_right']

/-- For extensions without points, having one of them is ending in one of them. -/
theorem hasExtension_iff_endsIn {extensions : List String}
    (h : ∀ e ∈ extensions, '.' ∉ e.toList) {name : String} :
    hasExtension extensions name = true ↔ EndsIn extensions name := by
  rw [hasExtension_eq_true_iff]
  simp only [extension?_eq_some_iff, EndsIn]
  constructor
  · rintro ⟨e, he, stem, hstem, hname, -⟩
    exact ⟨stem, hstem, e, he, hname⟩
  · rintro ⟨stem, hstem, e, he, hname⟩
    exact ⟨e, he, stem, hstem, hname, h e he⟩

/-- A path to which a name is added behind a slash. -/
structure IsOpen (path : String) : Prop where
  ne_empty : path ≠ ""
  no_slash : path.toList.getLast? ≠ some '/'

theorem IsName.not_isAbsolute {name : String} (h : IsName name) : isAbsolute name = false := by
  unfold isAbsolute
  apply decide_eq_false
  intro hhead
  have hmem : '/' ∈ name.toList := List.mem_of_mem_head? hhead
  exact h.no_slash hmem

/-- A name goes behind a slash, since no name is an absolute path. -/
theorem join_of_isOpen {path name : String} (hp : IsOpen path) (hn : IsName name) :
    join path name = path ++ "/" ++ name := by
  have hreplace : ¬(isAbsolute name = true ∨ path = "") := by
    rw [hn.not_isAbsolute]
    simp [hp.ne_empty]
  rw [join, if_neg hreplace, if_neg hp.no_slash]

theorem getLast?_of_isName {name : String} (h : IsName name) :
    name.toList.getLast? ≠ some '/' := by
  intro hlast
  have hmem : '/' ∈ name.toList := List.mem_of_getLast? hlast
  exact h.no_slash hmem

/-- Joining a name gives a path to which the next one can be added. -/
theorem isOpen_join (path : String) {name : String} (hn : IsName name) :
    IsOpen (join path name) := by
  have hne : name.toList ≠ [] := Text.toList_ne_nil hn.ne_empty
  have hlast : ∀ front : String, IsOpen (front ++ name) := by
    intro front
    constructor
    · intro hempty
      have hlist := congrArg String.toList hempty
      rw [String.toList_append, String.toList_empty, List.append_eq_nil_iff] at hlist
      exact hne hlist.2
    · rw [String.toList_append, List.getLast?_append_of_ne_nil _ hne]
      exact getLast?_of_isName hn
  unfold join
  split
  · have h := hlast ""
    rwa [String.empty_append] at h
  · split
    · exact hlast path
    · exact hlast (path ++ "/")

theorem toList_join {path name : String} (hp : IsOpen path) (hn : IsName name) :
    (join path name).toList = path.toList ++ '/' :: name.toList := by
  rw [join_of_isOpen hp hn]
  simp

theorem isAbsolute_join {path name : String} (hp : IsOpen path) (hn : IsName name) :
    isAbsolute (join path name) = isAbsolute path := by
  have hne : path.toList ≠ [] := Text.toList_ne_nil hp.ne_empty
  unfold isAbsolute
  rw [toList_join hp hn, List.head?_append_of_ne_nil _ hne]

/-- A name behind a path is one more step. -/
theorem steps_join {path name : String} (hp : IsOpen path) (hn : IsName name) :
    steps (join path name) = steps path ++ [name] := by
  have hne : name.toList ≠ [] := Text.toList_ne_nil hn.ne_empty
  have hlast := (isOpen_join path hn).no_slash
  unfold steps
  dsimp only
  rw [if_neg fun h => hlast h.2, if_neg fun h => hp.no_slash h.2, toList_join hp hn,
    Text.cutAt_eq_splitOn, Text.cutAt_eq_splitOn, List.splitOn_append_cons_self,
    List.splitOn_eq_singleton hn.no_slash, List.filter_append, List.map_append]
  simp [hne]

end Path

namespace FileTree

/-- Every entry of the tree has a proper name. -/
inductive Named : FileTree → Prop
  | file (contents : ByteArray) : Named (.file contents)
  | directory {entries : List (String × FileTree)} : (∀ e ∈ entries, Path.IsName e.1) →
      (∀ e ∈ entries, Named e.2) → Named (.directory entries)

theorem named_directory_iff {entries : List (String × FileTree)} :
    (directory entries).Named ↔ (∀ e ∈ entries, Path.IsName e.1) ∧ ∀ e ∈ entries, e.2.Named := by
  constructor
  · intro h
    cases h with
    | directory hnames hsub => exact ⟨hnames, hsub⟩
  · rintro ⟨hnames, hsub⟩
    exact .directory hnames hsub

/-- A file at the end of a path is an entry of the directory before the last step. -/
theorem walk_append_file {here : FileTree} {above : List FileTree} {steps : List String}
    {name : String} {contents : ByteArray} (hn : Path.IsName name)
    (h : here.walk above (steps ++ [name]) = .ok (.file contents)) :
    ∃ entries, here.walk above steps = .ok (.directory entries) ∧
      name ∈ entries.map (·.1) := by
  induction steps generalizing here above with
  | nil =>
    cases here with
    | file found => cases h
    | directory entries =>
      refine ⟨entries, rfl, ?_⟩
      rw [List.nil_append] at h
      unfold walk at h
      rw [if_neg hn.ne_dot, if_neg hn.ne_dots] at h
      split at h
      · cases h
      · split at h
        · cases h
        · rename_i next hnext
          exact List.mem_map_of_mem (f := (·.1)) (mem_of_lookup hnext)
  | cons step steps ih =>
    cases here with
    | file found => cases h
    | directory entries =>
      rw [List.cons_append] at h
      unfold walk at h ⊢
      by_cases hdot : step = "."
      · rw [if_pos hdot] at h ⊢
        exact ih h
      rw [if_neg hdot] at h ⊢
      by_cases hdots : step = ".."
      · rw [if_pos hdots] at h ⊢
        cases above with
        | nil => exact ih h
        | cons parent above => exact ih h
      rw [if_neg hdots] at h ⊢
      by_cases hlong : maxNameBytes < step.utf8ByteSize
      · rw [if_pos hlong] at h
        cases h
      rw [if_neg hlong] at h ⊢
      cases hnext : entries.lookup step with
      | none =>
        rw [hnext] at h
        cases h
      | some next =>
        rw [hnext] at h
        exact ih h

end FileTree

namespace FileSystem

variable {fs : FileSystem}

/-- A file that is found at the path of a name is listed under that name. -/
theorem mem_names_of_isFile {path name : String} (hp : Path.IsOpen path) (hn : Path.IsName name)
    (h : fs.isFile (Path.join path name) = true) : name ∈ fs.names path := by
  obtain ⟨contents, hfind⟩ : ∃ contents, fs.find (Path.join path name) = .ok (.file contents) := by
    unfold isFile at h
    split at h
    · rename_i contents hfind
      exact ⟨contents, hfind⟩
    · cases h
  have hsize : path.utf8ByteSize ≤ (Path.join path name).utf8ByteSize := by
    rw [Path.join_of_isOpen hp hn]
    simp only [String.utf8ByteSize_append]
    omega
  rw [mem_names]
  unfold find at hfind ⊢
  rw [Path.isAbsolute_join hp hn, Path.steps_join hp hn, Path.toList_join hp hn] at hfind
  by_cases hzero : path.toList.contains '\x00' = true
  · have hzero' : (path.toList ++ '/' :: name.toList).contains '\x00' = true := by
      rw [List.contains_append, hzero, Bool.true_or]
    rw [if_pos hzero'] at hfind
    cases hfind
  rw [if_neg hzero, if_neg hp.ne_empty]
  split at hfind
  · cases hfind
  split at hfind
  · cases hfind
  split at hfind
  · cases hfind
  · rename_i hlong
    rw [if_neg (by omega)]
    split at hfind
    · rename_i habsolute
      rw [if_pos habsolute]
      exact FileTree.walk_append_file hn hfind
    · rename_i habsolute
      rw [if_neg habsolute]
      split at hfind
      · cases hfind
      · rename_i start hstart
        rw [← List.append_assoc] at hfind
        exact FileTree.walk_append_file hn hfind

/-- The names of the files in a directory that have one of some extensions, as they are listed. -/
def filesWith (fs : FileSystem) (extensions : List String) (directory : String) : List String :=
  (fs.names directory).filter fun name =>
    Path.hasExtension extensions name && fs.isFile (Path.join directory name)

/-- A directory is no file, even if its name has the extension. -/
theorem mem_filesWith {extensions : List String} {directory name : String} :
    name ∈ fs.filesWith extensions directory ↔
      name ∈ fs.names directory ∧ Path.hasExtension extensions name = true ∧
        fs.isFile (Path.join directory name) = true := by
  rw [filesWith, List.mem_filter, Bool.and_eq_true]

/-- Without repeated entries no file is listed twice. -/
theorem pairwise_filesWith (hfs : fs.root.Distinct) (extensions : List String)
    (directory : String) : (fs.filesWith extensions directory).Pairwise (· < ·) :=
  (pairwise_names hfs directory).filter _

theorem isName_of_mem_names (hfs : fs.root.Named) {path name : String}
    (h : name ∈ fs.names path) : Path.IsName name := by
  obtain ⟨entries, hfind, hmem⟩ := mem_names.1 h
  obtain ⟨e, he, rfl⟩ := List.mem_map.1 hmem
  have hnamed : (FileTree.directory entries).Named :=
    find_induct (fun _ h => (FileTree.named_directory_iff.1 h).2) hfs hfind
  exact (FileTree.named_directory_iff.1 hnamed).1 e he

end FileSystem

end AddonLint
