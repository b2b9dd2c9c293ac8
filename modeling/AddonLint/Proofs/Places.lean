import AddonLint.Proofs.Paths

/-!
# Places that paths lead to

A path with one more name leads one step further down, and two names are no step down: a single
point stays where it is, and two points go back. What is found behind a path with a proper name at
its end depends on nothing but what is found behind the path in front of it.
-/
namespace AddonLint

namespace Path

/-! ### Places -/

/-- A path as it is written in front of a name. -/
def opened (path : String) : String :=
  if path = "" ∨ path.toList.getLast? = some '/' then path else path ++ "/"

/-- The names between the slashes of a path. -/
def namesIn (path : String) : List String :=
  ((Text.cutAt '/' path.toList).filter (· ≠ [])).map String.ofList

/-- The steps from the root to the place of a path that starts behind some steps. -/
def place (start : List String) (path : String) : List String := resolved (start ++ steps path)

theorem not_isAbsolute_of_no_slash {name : String} (h : '/' ∉ name.toList) :
    isAbsolute name = false :=
  decide_eq_false fun hhead => h (List.mem_of_mem_head? hhead)

theorem join_eq {path name : String} (h : '/' ∉ name.toList) :
    join path name = opened path ++ name := by
  rw [join, opened, not_isAbsolute_of_no_slash h]
  by_cases hempty : path = ""
  · rw [if_pos (.inr hempty), if_pos (.inl hempty), hempty, String.empty_append]
  · by_cases hslash : path.toList.getLast? = some '/'
    · rw [if_neg (by simp [hempty]), if_pos hslash, if_pos (.inr hslash)]
    · rw [if_neg (by simp [hempty]), if_neg hslash, if_neg (by simp [hempty, hslash])]

/-- Different names below one path make different paths. -/
theorem join_inj {path name other : String} (h : '/' ∉ name.toList) (h' : '/' ∉ other.toList) :
    join path name = join path other ↔ name = other := by
  rw [join_eq h, join_eq h', ← String.toList_inj, String.toList_append, String.toList_append,
    List.append_cancel_left_eq, String.toList_inj]

theorem resolved_append_dot (steps : List String) : resolved (steps ++ ["."]) = resolved steps := by
  simp [resolved, resolved.go]

theorem resolved_append_dots (steps : List String) :
    resolved (steps ++ [".."]) = (resolved steps).dropLast := by
  simp [resolved, resolved.go, List.dropLast_reverse]

theorem resolved_append_name (steps : List String) {name : String} (h : IsName name) :
    resolved (steps ++ [name]) = resolved steps ++ [name] := by
  have hgo (above : List String) : resolved.go above name = name :: above := by
    unfold resolved.go
    split
    · exact absurd rfl h.ne_dot
    · exact absurd rfl h.ne_dots
    · rfl
  simp [resolved, hgo]

/-- A slash at the end stays in the same place. -/
theorem place_eq (start : List String) (path : String) :
    place start path = resolved (start ++ namesIn path) := by
  rw [place, steps]
  split
  · rw [← List.append_assoc, resolved_append_dot]
    rfl
  · rfl

theorem namesIn_concat_slash (path : String) : namesIn (path ++ "/") = namesIn path := by
  have hlist : (path ++ "/").toList = path.toList ++ '/' :: [] := String.toList_append
  rw [namesIn, namesIn, hlist, Text.cutAt_eq_splitOn, Text.cutAt_eq_splitOn,
    List.splitOn_append_cons_self, List.filter_append]
  simp

theorem namesIn_slash_name (path : String) {name : String} (h : '/' ∉ name.toList)
    (hne : name ≠ "") : namesIn (path ++ "/" ++ name) = namesIn path ++ [name] := by
  have hlist : (path ++ "/" ++ name).toList = path.toList ++ '/' :: name.toList := by simp
  have hname : name.toList ≠ [] := Text.toList_ne_nil hne
  rw [namesIn, namesIn, hlist, Text.cutAt_eq_splitOn, Text.cutAt_eq_splitOn,
    List.splitOn_append_cons_self, List.splitOn_eq_singleton h, List.filter_append,
    List.map_append]
  simp [hname]

theorem namesIn_opened (path : String) : namesIn (opened path) = namesIn path := by
  rw [opened]
  split
  · rfl
  · exact namesIn_concat_slash path

theorem namesIn_join (path : String) {name : String} (h : '/' ∉ name.toList) (hne : name ≠ "") :
    namesIn (join path name) = namesIn path ++ [name] := by
  rw [join_eq h, opened]
  split
  · rename_i hopen
    rcases hopen with rfl | hslash
    · have hname : name.toList ≠ [] := Text.toList_ne_nil hne
      rw [String.empty_append, namesIn, Text.cutAt_eq_splitOn, List.splitOn_eq_singleton h]
      simp [namesIn, Text.cutAt, hname]
    · -- The slash at the end of the path is the one that a name is put behind.
      obtain ⟨front, hfront⟩ : ∃ front : String, path = front ++ "/" := by
        obtain ⟨init, hinit⟩ := List.getLast?_eq_some_iff.mp hslash
        refine ⟨String.ofList init, String.toList_inj.mp ?_⟩
        rw [hinit, String.toList_append, String.toList_ofList]
        rfl
      rw [hfront, namesIn_slash_name front h hne, namesIn_concat_slash]
  · exact namesIn_slash_name path h hne

variable (start : List String) (path : String)

theorem place_join_empty : place start (join path "") = place start path := by
  have hslash : '/' ∉ "".toList := List.not_mem_nil
  rw [place_eq, place_eq, join_eq hslash, String.append_empty, namesIn_opened]

theorem place_join_dot : place start (join path ".") = place start path := by
  rw [place_eq, place_eq, namesIn_join path (by decide) (by decide), ← List.append_assoc,
    resolved_append_dot]

theorem place_join_dots : place start (join path "..") = (place start path).dropLast := by
  rw [place_eq, place_eq, namesIn_join path (by decide) (by decide), ← List.append_assoc,
    resolved_append_dots]

theorem place_join_name {name : String} (h : IsName name) :
    place start (join path name) = place start path ++ [name] := by
  rw [place_eq, place_eq, namesIn_join path h.no_slash h.ne_empty, ← List.append_assoc,
    resolved_append_name _ h]

end Path

namespace FileTree

/-- The last step is taken from where the steps before it lead. -/
theorem walk_append_name {name : String} (h : Path.IsName name) (here : FileTree)
    (above : List FileTree) (steps : List String) :
    here.walk above (steps ++ [name]) =
      here.walk above steps >>= fun there => there.walk [] [name] := by
  fun_induction walk here above steps with
  | case1 above here =>
    -- A proper name is looked up among the entries, whatever is above them.
    change here.walk above [name] = here.walk [] [name]
    cases here with
    | file contents => rfl
    | directory entries =>
      unfold walk
      rw [if_neg h.ne_dot, if_neg h.ne_dots, if_neg h.ne_dot, if_neg h.ne_dots]
      simp only [walk]
  | case2 => rfl
  | case3 entries above rest ih =>
    rw [← ih, List.cons_append]
    conv_lhs => unfold walk
    rw [if_pos rfl]
  | case4 entries rest hdot ih =>
    rw [← ih, List.cons_append]
    conv_lhs => unfold walk
    rw [if_neg hdot, if_pos rfl]
  | case5 entries rest parent above hdot ih =>
    rw [← ih, List.cons_append]
    conv_lhs => unfold walk
    rw [if_neg hdot, if_pos rfl]
  | case6 entries above step rest hdot hdots hlong =>
    rw [List.cons_append]
    unfold walk
    rw [if_neg hdot, if_neg hdots, if_pos hlong]
    rfl
  | case7 entries above step rest hdot hdots hlong hnone =>
    rw [List.cons_append]
    unfold walk
    rw [if_neg hdot, if_neg hdots, if_neg hlong, hnone]
    rfl
  | case8 entries above step rest hdot hdots hlong next hnext ih =>
    rw [← ih, List.cons_append]
    conv_lhs => unfold walk
    rw [if_neg hdot, if_neg hdots, if_neg hlong, hnext]

end FileTree

namespace FileSystem

variable {fs fs' : FileSystem} {path : String}

/-! ### What lies behind a path -/

/-- A path that the operating system follows at all. -/
structure IsUsable (path : String) : Prop where
  no_zero : path.toList.contains '\x00' = false
  ne_empty : path ≠ ""
  size : path.utf8ByteSize ≤ maxPathBytes

/-- Where steps lead from the root or from the working directory. -/
def follow (fs : FileSystem) (absolute : Bool) (steps : List String) : Except IoError FileTree :=
  if absolute then fs.root.walk [] steps
  else
    match fs.workingDirectory with
    | none => .error .notFound
    | some start => fs.root.walk [] (start ++ steps)

theorem find_of_isUsable (h : IsUsable path) :
    fs.find path = fs.follow (Path.isAbsolute path) (Path.steps path) := by
  rw [find, if_neg (Bool.eq_false_iff.mp h.no_zero), if_neg h.ne_empty,
    if_neg (Nat.not_lt_of_le h.size)]
  rfl

/-- What is wrong with a path itself is found without looking at any file. -/
theorem find_of_not_isUsable (h : ¬IsUsable path) : fs'.find path = fs.find path := by
  unfold find
  split
  · rfl
  · rename_i hzero
    split
    · rfl
    · rename_i hempty
      split
      · rfl
      · rename_i hlong
        exact absurd ⟨Bool.eq_false_iff.mpr hzero, hempty, Nat.le_of_not_lt hlong⟩ h

theorem follow_append_name {name : String} (h : Path.IsName name) (absolute : Bool)
    (steps : List String) :
    fs.follow absolute (steps ++ [name]) =
      fs.follow absolute steps >>= fun there => there.walk [] [name] := by
  unfold follow
  split
  · exact FileTree.walk_append_name h _ _ _
  · cases fs.workingDirectory with
    | none => rfl
    | some start =>
      dsimp only
      rw [← List.append_assoc, FileTree.walk_append_name h]

theorem IsUsable.of_join {name : String} (hp : Path.IsOpen path) (hn : Path.IsName name)
    (h : IsUsable (Path.join path name)) : IsUsable path := by
  obtain ⟨hzero, -, hsize⟩ := h
  rw [Path.toList_join hp hn, List.contains_append, Bool.or_eq_false_iff] at hzero
  rw [Path.join_of_isOpen hp hn, String.utf8ByteSize_append, String.utf8ByteSize_append] at hsize
  exact ⟨hzero.1, hp.ne_empty, by omega⟩

/-- Whatever a path leads to decides where it leads with one more name. -/
theorem find_join_congr {name : String} (hp : Path.IsOpen path) (hn : Path.IsName name)
    (h : fs'.find path = fs.find path) :
    fs'.find (Path.join path name) = fs.find (Path.join path name) := by
  by_cases husable : IsUsable (Path.join path name)
  · have hpath := husable.of_join hp hn
    rw [find_of_isUsable hpath, find_of_isUsable hpath] at h
    rw [find_of_isUsable husable, find_of_isUsable husable, Path.isAbsolute_join hp hn,
      Path.steps_join hp hn, follow_append_name hn, follow_append_name hn, h]
  · exact find_of_not_isUsable husable

theorem isDirectory_of_find_eq (h : fs'.find path = fs.find path) :
    fs'.isDirectory path = fs.isDirectory path := by
  rw [isDirectory, isDirectory, h]

theorem names_of_find_eq (h : fs'.find path = fs.find path) : fs'.names path = fs.names path := by
  rw [names, names, h]

theorem sameFile_of_find_eq (h : fs'.find path = fs.find path) : fs.SameFile fs' path := by
  constructor
  · rw [isFile, isFile, h]
  · rw [readText, readText, h]

/-- What a path leads to decides all files below it. -/
theorem sameFiles_of_find_eq (hfs : fs.root.Named) (hp : Path.IsOpen path)
    (h : fs'.find path = fs.find path) : fs.SameFiles fs' path :=
  ⟨names_of_find_eq h, fun _ hname =>
    sameFile_of_find_eq (find_join_congr hp (isName_of_mem_names hfs hname) h)⟩

end FileSystem

end AddonLint
