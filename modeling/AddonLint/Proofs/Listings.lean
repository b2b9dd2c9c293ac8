import AddonLint.Files.Tree
import AddonLint.Proofs.ByteOrder
import Mathlib.Data.List.Forall2
import Mathlib.Data.List.Nodup

/-!
# Listings of directories

A directory holds its entries in whatever order the system lists them. What can be
seen of a file tree does not depend on that order, because listings are sorted before
they are used. When no directory holds two entries of one name, which no real one
does, a sorted listing has no repetitions.
-/
namespace AddonLint

namespace FileTree

/-- No directory of the tree holds two entries of one name. -/
inductive Distinct : FileTree → Prop
  | file (contents : ByteArray) : Distinct (.file contents)
  | directory {entries : List (String × FileTree)} : (entries.map (·.1)).Nodup →
      (∀ e ∈ entries, Distinct e.2) → Distinct (.directory entries)

/-- The second tree is the first one with its directories listed in other orders. -/
inductive Relisted : FileTree → FileTree → Prop
  | file (contents : ByteArray) : Relisted (.file contents) (.file contents)
  | directory {entries entries' : List (String × FileTree)} :
      (entries.map (·.1)).Perm (entries'.map (·.1)) →
      (∀ name t t', (name, t) ∈ entries → (name, t') ∈ entries' → Relisted t t') →
      Relisted (.directory entries) (.directory entries')

theorem distinct_directory_iff {entries : List (String × FileTree)} :
    (directory entries).Distinct ↔ (entries.map (·.1)).Nodup ∧ ∀ e ∈ entries, e.2.Distinct := by
  constructor
  · intro h
    cases h with
    | directory hnodup hsub => exact ⟨hnodup, hsub⟩
  · rintro ⟨hnodup, hsub⟩
    exact .directory hnodup hsub

theorem mem_of_lookup {entries : List (String × FileTree)} {name : String} {t : FileTree}
    (h : entries.lookup name = some t) : (name, t) ∈ entries := by
  obtain ⟨before, after, rfl, -⟩ := List.lookup_eq_some_iff.1 h
  exact List.mem_append_right before List.mem_cons_self

theorem lookup_eq_none_iff {entries : List (String × FileTree)} {name : String} :
    entries.lookup name = none ↔ name ∉ entries.map (·.1) := by
  rw [List.lookup_eq_none_iff, List.mem_map]
  constructor
  · rintro h ⟨e, he, rfl⟩
    exact bne_iff_ne.1 (h e he) rfl
  · intro h e he
    exact bne_iff_ne.2 fun heq => h ⟨e, he, heq.symm⟩

/-- What holds of a tree and goes over from directories to their entries holds of what lies
behind a path. -/
theorem walk_induct {P : FileTree → Prop}
    (hsub : ∀ entries, P (.directory entries) → ∀ e ∈ entries, P e.2) {here : FileTree}
    {above : List FileTree} {steps : List String} {there : FileTree} (hhere : P here)
    (habove : ∀ t ∈ above, P t) (h : here.walk above steps = .ok there) : P there := by
  fun_induction walk here above steps with
  | case1 here above =>
    cases h
    exact hhere
  | case2 => cases h
  | case3 entries above rest ih => exact ih hhere habove h
  | case4 entries rest _ ih => exact ih hhere habove h
  | case5 entries rest parent above _ ih =>
    exact ih (habove parent List.mem_cons_self)
      (fun t ht => habove t (List.mem_cons_of_mem parent ht)) h
  | case6 => cases h
  | case7 => cases h
  | case8 entries above name rest _ _ _ next hnext ih =>
    refine ih (hsub entries hhere _ (mem_of_lookup hnext)) (fun t ht => ?_) h
    rcases List.mem_cons.1 ht with rfl | ht
    · exact hhere
    · exact habove t ht

/-- Two results of following a path differ at most in the orders of listings. -/
inductive RelistedResult : Except IoError FileTree → Except IoError FileTree → Prop
  | ok {t t' : FileTree} : Relisted t t' → RelistedResult (.ok t) (.ok t')
  | error (e : IoError) : RelistedResult (.error e) (.error e)

/-- Steps lead to the same place in any listing, if they lead anywhere. -/
theorem relisted_walk {here here' : FileTree} {above above' : List FileTree}
    (hhere : Relisted here here') (habove : List.Forall₂ Relisted above above')
    (steps : List String) :
    RelistedResult (here.walk above steps) (here'.walk above' steps) := by
  induction steps generalizing here here' above above' with
  | nil => exact .ok hhere
  | cons name rest ih =>
    cases hhere with
    | file contents => exact .error _
    | @directory entries entries' hperm hsub =>
      have hdirectory : Relisted (.directory entries) (.directory entries') :=
        .directory hperm hsub
      unfold walk
      split
      · exact ih hdirectory habove
      · split
        · -- A step up leads to a tree above, so those have to be related as well.
          cases habove with
          | nil => exact ih hdirectory .nil
          | cons hparent habove => exact ih hparent habove
        · split
          · exact .error _
          · cases hl : entries.lookup name with
            | none =>
              have hl' : entries'.lookup name = none :=
                lookup_eq_none_iff.2 fun hmem => lookup_eq_none_iff.1 hl (hperm.mem_iff.2 hmem)
              rw [hl']
              exact .error _
            | some t =>
              have hne : entries'.lookup name ≠ none := fun hl' => by
                refine lookup_eq_none_iff.1 hl' (hperm.mem_iff.1 ?_)
                exact List.mem_map_of_mem (mem_of_lookup hl)
              obtain ⟨t', hl'⟩ := Option.ne_none_iff_exists'.1 hne
              rw [hl']
              exact ih (hsub name t t' (mem_of_lookup hl) (mem_of_lookup hl'))
                (.cons hdirectory habove)

end FileTree

namespace FileSystem

/-- The same files, with directories listed in other orders. -/
structure Relisted (fs fs' : FileSystem) : Prop where
  root : fs.root.Relisted fs'.root
  workingDirectory : fs'.workingDirectory = fs.workingDirectory

/-- What holds of a tree and of every entry of a directory holds wherever a path leads. -/
theorem find_induct {P : FileTree → Prop}
    (hsub : ∀ entries, P (.directory entries) → ∀ e ∈ entries, P e.2) {fs : FileSystem}
    (hroot : P fs.root) {path : String} {t : FileTree} (h : fs.find path = .ok t) : P t := by
  have hwalk : ∀ steps, fs.root.walk [] steps = .ok t → P t := by
    intro steps hwalk
    refine FileTree.walk_induct hsub hroot ?_ hwalk
    exact fun _ ht => nomatch ht
  unfold find at h
  split at h
  · cases h
  · split at h
    · cases h
    · split at h
      · cases h
      · split at h
        · exact hwalk _ h
        · split at h
          · cases h
          · exact hwalk _ h

theorem distinct_find {fs : FileSystem} (hfs : fs.root.Distinct) {path : String} {t : FileTree}
    (h : fs.find path = .ok t) : t.Distinct :=
  find_induct (fun _ h => (FileTree.distinct_directory_iff.1 h).2) hfs h

theorem relisted_find {fs fs' : FileSystem} (h : Relisted fs fs') (path : String) :
    FileTree.RelistedResult (fs.find path) (fs'.find path) := by
  unfold find
  rw [h.workingDirectory]
  split
  · exact .error _
  · split
    · exact .error _
    · split
      · exact .error _
      · split
        · exact FileTree.relisted_walk h.root .nil _
        · cases fs.workingDirectory with
          | none => exact .error _
          | some steps => exact FileTree.relisted_walk h.root .nil _

/-! ### Names in a directory -/

theorem mem_names {fs : FileSystem} {path name : String} :
    name ∈ fs.names path ↔
      ∃ entries, fs.find path = .ok (.directory entries) ∧ name ∈ entries.map (·.1) := by
  unfold names
  split
  · rename_i entries h
    simp [h]
  · rename_i h
    simp only [List.not_mem_nil, false_iff, not_exists, not_and]
    exact fun entries hentries => (h entries hentries).elim

theorem isDirectory_of_mem_names {fs : FileSystem} {path name : String}
    (h : name ∈ fs.names path) : fs.isDirectory path = true := by
  obtain ⟨entries, hfind, -⟩ := mem_names.1 h
  rw [isDirectory, hfind]

theorem names_of_sorted {fs : FileSystem} {path : String} {entries : List (String × FileTree)}
    (h : fs.find path = .ok (.directory entries))
    (hsorted : (entries.map (·.1)).Pairwise (· ≤ ·)) : fs.names path = entries.map (·.1) := by
  rw [names, h]
  exact List.mergeSort_of_pairwise (hsorted.imp decide_eq_true)

theorem readText_of_find {fs : FileSystem} {path text : String}
    (h : fs.find path = .ok (.file text.toUTF8)) : fs.readText path = .ok text := by
  have htext : String.fromUTF8? text.toUTF8 = some text := by
    rw [String.fromUTF8?, String.toUTF8_eq_toByteArray, dif_pos text.isValidUTF8]
    rfl
  rw [readText, h]
  dsimp only
  rw [htext]

theorem pairwise_names_le (fs : FileSystem) (path : String) :
    (fs.names path).Pairwise (· ≤ ·) := by
  unfold names
  split
  · exact Text.pairwise_mergeSort_le id _
  · exact .nil

/-- A sorted listing of distinct names is strictly increasing. -/
theorem pairwise_names {fs : FileSystem} (hfs : fs.root.Distinct) (path : String) :
    (fs.names path).Pairwise (· < ·) := by
  unfold names
  split
  · rename_i entries h
    have hnodup := (FileTree.distinct_directory_iff.1 (distinct_find hfs h)).1
    exact Text.pairwise_mergeSort_lt id (by rwa [List.map_id])
  · exact .nil

/-! ### What other orders of listings leave alone -/

section Relisted

variable {fs fs' : FileSystem} (h : Relisted fs fs') (path : String)
include h

theorem isDirectory_relisted : fs'.isDirectory path = fs.isDirectory path := by
  have hfind := relisted_find h path
  unfold isDirectory
  generalize fs.find path = result, fs'.find path = result' at hfind ⊢
  cases hfind with
  | error e => rfl
  | ok ht => cases ht <;> rfl

theorem isFile_relisted : fs'.isFile path = fs.isFile path := by
  have hfind := relisted_find h path
  unfold isFile
  generalize fs.find path = result, fs'.find path = result' at hfind ⊢
  cases hfind with
  | error e => rfl
  | ok ht => cases ht <;> rfl

theorem readText_relisted : fs'.readText path = fs.readText path := by
  have hfind := relisted_find h path
  unfold readText
  generalize fs.find path = result, fs'.find path = result' at hfind ⊢
  cases hfind with
  | error e => rfl
  | ok ht => cases ht <;> rfl

/-- Names are sorted, so that their listing does not matter. -/
theorem names_relisted : fs'.names path = fs.names path := by
  have hperm : (fs'.names path).Perm (fs.names path) := by
    have hfind := relisted_find h path
    unfold names
    generalize fs.find path = result, fs'.find path = result' at hfind ⊢
    cases hfind with
    | error e => exact .nil
    | ok ht =>
      cases ht with
      | file contents => exact .nil
      | directory hperm hsub =>
        exact (List.mergeSort_perm _ _).trans (hperm.symm.trans (List.mergeSort_perm _ _).symm)
  exact List.Perm.eq_of_pairwise (fun a b _ _ hab hba => String.le_antisymm hab hba)
    (pairwise_names_le fs' path) (pairwise_names_le fs path) hperm

end Relisted

/-! ### What looks the same -/

/-- A path leads to the same file, or to none. -/
structure SameFile (fs fs' : FileSystem) (path : String) : Prop where
  isFile : fs'.isFile path = fs.isFile path
  readText : fs'.readText path = fs.readText path

/-- A directory has the same files. -/
structure SameFiles (fs fs' : FileSystem) (directory : String) : Prop where
  names : fs'.names directory = fs.names directory
  files : ∀ name ∈ fs.names directory, SameFile fs fs' (Path.join directory name)

theorem SameFiles.filter_names {fs fs' : FileSystem} {directory : String}
    (h : SameFiles fs fs' directory) (p : String → Bool) :
    ((fs'.names directory).filter fun name => p name && fs'.isFile (Path.join directory name)) =
      (fs.names directory).filter fun name => p name && fs.isFile (Path.join directory name) := by
  rw [h.names]
  refine List.filter_congr fun name hname => ?_
  rw [(h.files name hname).isFile]

end FileSystem

end AddonLint
