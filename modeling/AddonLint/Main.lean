import AddonLint.CommandLine
import Std.Time.DateTime.Timestamp

/-!
# The program

Shows the command line the files it may read, the environment and the clock, writes its output and
ends with its exit code.
-/
namespace AddonLint.Main

/-- The tree at a path, down to a number of levels. As trees have no permissions, a directory that
cannot be listed counts as empty here, and a file that cannot be opened is left out. -/
def treeAt? (levels : Nat) (path : String) : IO (Option FileTree) := do
  let place := System.mkFilePath [path]
  if ← place.isDir then
    match levels with
    | 0 => return some (.directory [])
    | levels + 1 =>
      let .ok found ← place.readDir.toBaseIO | return some (.directory [])
      let trees ← found.toList.filterMapM fun entry => do
        return (← treeAt? levels (Path.join path entry.fileName)).map (entry.fileName, ·)
      return some (.directory trees)
  else
    let .ok contents ← (IO.FS.readBinFile place).toBaseIO | return none
    return some (.file contents)

/-- The levels of files below the directory of an addon: the manifests of a bundle in its cache are
the deepest. -/
def addonLevels : Nat := 5

/-- Files together with what lies at a path and with the places on the way to it. -/
def look (fs : FileSystem) (levels : Nat) (path : String) : IO FileSystem := do
  match fs.absolute path with
  | .error _ => return fs
  | .ok absolute =>
    let steps := Path.steps absolute
    let mut root := fs.root
    for count in List.range (steps.length + 1) do
      let above := steps.take count
      let levels := if count = steps.length then levels else 0
      if let some tree ← treeAt? levels ("/" ++ String.intercalate "/" above) then
        root := tree.put (Path.resolved above) root
    return { fs with root }

/-- The working directory, unless it has been removed. -/
def workingDirectory : IO (Option (List String)) := do
  let .ok place ← IO.currentDir.toBaseIO | return none
  return some (Path.steps place.toString)

/-- The variables of the environment that the settings know. -/
def environmentVariables : IO (List (String × String)) := do
  [Settings.Overrides.cacheVariable, Settings.Overrides.timeoutVariable,
    Settings.Overrides.jobsVariable].filterMapM fun name => do
      return (← IO.getEnv name).map fun value => (name, value)

/-- The current time, to the second. -/
def now : IO Instant := do
  return ⟨(← Std.Time.Timestamp.now).toSecondsSinceUnixEpoch.val, 0⟩

def run (args : List String) : IO UInt32 := do
  let values ← environmentVariables
  let lookup := fun name => values.lookup name
  let mut fs : FileSystem := ⟨.directory [], ← workingDirectory⟩
  if let some path := CommandLine.configFile? args then
    fs ← look fs 0 path
  for path in CommandLine.directories fs lookup args do
    fs ← look fs addonLevels path
  let output := CommandLine.output fs lookup (← now) args
  IO.print output.text
  if let some message := output.error then IO.eprintln message
  return UInt32.ofNat output.exit

end AddonLint.Main

def main (args : List String) : IO UInt32 := AddonLint.Main.run args
