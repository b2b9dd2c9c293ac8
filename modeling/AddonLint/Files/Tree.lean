import AddonLint.Files.Path

/-!
# File trees

What the program can see of the files: a tree of directories and a working directory. Reading
follows a path step by step and fails where the operating system would. A tree has no permissions:
every directory in it can be listed and every file opened.
-/
namespace AddonLint

/-- Why a file could not be read. No tree gives rise to `other`, which stands for the reasons of a
real file system, such as missing permissions. -/
inductive IoError where
  | notFound
  | notADirectory
  | isADirectory
  | nameTooLong
  | zeroInPath
  | notText
  | other (reason : String)
  deriving DecidableEq, Repr

def IoError.message : IoError → String
  | .notFound => "No such file or directory (os error 2)"
  | .notADirectory => "Not a directory (os error 20)"
  | .isADirectory => "Is a directory (os error 21)"
  | .nameTooLong => "File name too long (os error 36)"
  | .zeroInPath => "file name contained an unexpected NUL byte"
  | .notText => "stream did not contain valid UTF-8"
  | .other reason => reason

/-- A file with its bytes, or a directory with its entries in any order. -/
inductive FileTree where
  | file (contents : ByteArray)
  | directory (entries : List (String × FileTree))
  deriving Inhabited

namespace FileTree

def maxNameBytes : Nat := 255

/-- Follow steps from a place below the directories `above`, the nearest one in front. -/
def walk : (here : FileTree) → (above : List FileTree) → List String → Except IoError FileTree
  | here, _, [] => .ok here
  | .file _, _, _ :: _ => .error .notADirectory
  | .directory entries, above, name :: rest =>
    if name = "." then walk (.directory entries) above rest
    else if name = ".." then
      match above with
      | [] => walk (.directory entries) [] rest
      | parent :: above => walk parent above rest
    else if maxNameBytes < name.utf8ByteSize then .error .nameTooLong
    else
      match entries.lookup name with
      | none => .error .notFound
      | some next => walk next (.directory entries :: above) rest

/-- A tree with another one put behind some steps. Directories are made on the way where there are
none. An empty directory leaves a directory as it is. -/
def put (contents : FileTree) : (steps : List String) → (here : FileTree) → FileTree
  | [], here =>
    match contents, here with
    | .directory [], .directory entries => .directory entries
    | _, _ => contents
  | name :: rest, here =>
    let entries := match here with
      | .directory entries => entries
      | .file _ => []
    let next := put contents rest ((entries.lookup name).getD (.directory []))
    .directory (entries.filter (fun e => e.1 ≠ name) ++ [(name, next)])

end FileTree

/-- The files and the steps to the working directory, unless that has been removed. -/
structure FileSystem where
  root : FileTree
  workingDirectory : Option (List String)

namespace FileSystem

def maxPathBytes : Nat := 4095

/-- What a path leads to. -/
def find (fs : FileSystem) (path : String) : Except IoError FileTree :=
  if path.toList.contains '\x00' then .error .zeroInPath
  else if path = "" then .error .notFound
  else if maxPathBytes < path.utf8ByteSize then .error .nameTooLong
  else if Path.isAbsolute path then fs.root.walk [] (Path.steps path)
  else
    match fs.workingDirectory with
    | none => .error .notFound
    | some steps => fs.root.walk [] (steps ++ Path.steps path)

def isDirectory (fs : FileSystem) (path : String) : Bool :=
  match fs.find path with
  | .ok (.directory _) => true
  | _ => false

def isFile (fs : FileSystem) (path : String) : Bool :=
  match fs.find path with
  | .ok (.file _) => true
  | _ => false

def readText (fs : FileSystem) (path : String) : Except IoError String :=
  match fs.find path with
  | .error e => .error e
  | .ok (.directory _) => .error .isADirectory
  | .ok (.file contents) =>
    match String.fromUTF8? contents with
    | some text => .ok text
    | none => .error .notText

/-- The names in a directory in increasing order; none if the path leads elsewhere. There is no
error, since no directory of a tree is closed to reading. -/
def names (fs : FileSystem) (path : String) : List String :=
  match fs.find path with
  | .ok (.directory entries) => (entries.map (·.1)).mergeSort fun a b => a ≤ b
  | _ => []

def currentDirectory (fs : FileSystem) : Except IoError String :=
  match fs.workingDirectory with
  | none => .error .notFound
  | some steps => .ok ("/" ++ String.intercalate "/" steps)

/-- A path made absolute against the working directory. -/
def absolute (fs : FileSystem) (path : String) : Except IoError String :=
  if Path.isAbsolute path then .ok path
  else fs.currentDirectory.map fun directory => Path.join directory path

end FileSystem

end AddonLint
