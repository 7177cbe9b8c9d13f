import ImportFence.Command.Run

/-!
# The program

Takes a picture of the part of the disk that a command line is about, runs the command on it, and
writes and prints what comes out.
-/

namespace ImportFence.Program

/-- The files of a directory that can matter to a project below it. -/
def surroundingNames : List Place :=
  [[configFileName.text], [".ignore"], [".gitignore"], [".git"], [".git", "info", "exclude"],
    [".git", "hooks"], [".git", "hooks", "pre-commit"]]

/-- Whether the content of a file can matter; of other files only the existence does. -/
def isRead (name : String) : Bool :=
  name = packageFileName || surroundingNames.any (·.getLast? = some name) ||
    Extractor.python.handles ⟨name⟩

/-- The text of the absolute path to a place. -/
def absoluteText (place : Place) : String :=
  "/" ++ place.path.text

def addEntry (t : FileTree) (place : Place) : IO FileTree := do
  if place = [] then return t
  let path := (← IO.currentDir) / absoluteText place
  if ← path.isDir then return t.putDeep place .directory
  else if ← path.pathExists then
    return t.putDeep place (.file ⟨Content.ofBytes (← IO.FS.readBinFile path), false⟩)
  else return t.erase place

/-- The tree with what stands on disk below a place. Symbolic links are not followed. -/
partial def addBelow (t : FileTree) (place : Place) : IO FileTree := do
  let mut tree := t
  for entry in ← ((← IO.currentDir) / absoluteText place).readDir do
    let inner := place ++ [entry.fileName]
    match (← entry.path.symlinkMetadata).type with
    | .dir => tree ← addBelow (tree.put inner .directory) inner
    | .file =>
      if isRead entry.fileName then tree ← addEntry tree inner
      else tree := tree.put inner (Entry.ofText "")
    | _ => pure ()
  return tree

/-- The places that a path passes on its way from a starting place, the start included. -/
def passed (start : Place) (p : Path) : List Place :=
  (p.components.foldl (fun (here, all) c =>
    let next : Place := match c with
      | .root => []
      | .current => here
      | .parent => here.dropLast
      | .name n => here ++ [n]
    (next, all ++ [next])) (start, [start])).2

/-- The tree with everything on the way along a path, and what may stand beside it. -/
def addWay (t : FileTree) (start : Place) (p : Path) : IO FileTree := do
  let mut tree := t
  for place in (passed start p).flatMap Place.upward do
    tree ← addEntry tree place
    for names in surroundingNames do
      tree ← addEntry tree (place ++ names)
  return tree

def requested : Command → Path
  | .check path _ _ => path
  | .sync path _ _ => path
  | .report _ path _ _ _ => path
  | .init _ => ⟨"."⟩
  | .installPreCommit path _ => path

/-- Whether a command looks at the files of the project. -/
def readsProject : Command → Bool
  | .check _ _ _ => true
  | .sync _ _ _ => true
  | .report _ _ _ _ _ => true
  | .init _ => false
  | .installPreCommit _ _ => false

/-- The part of the disk that an invocation is about. -/
def snapshot (cwd : Place) (i : Invocation) : IO Disk := do
  let path := requested i.command
  let mut tree ← addWay .empty cwd path
  if let some config := i.config then tree ← addWay tree cwd config
  if readsProject i.command then
    let root := (ConfigSource.resolve ⟨tree, cwd⟩ path i.config).projectRoot path
    if let .ok place := Disk.locate ⟨tree, cwd⟩ root then
      if (tree.get? place).any (·.isDirectory) then tree ← addBelow tree place
  return ⟨tree, cwd⟩

/-- Everybody may read and run a file, its owner may write it. -/
def executableRights : IO.FileRight :=
  let others : IO.AccessRight := ⟨true, false, true⟩
  ⟨⟨true, true, true⟩, others, others⟩

/-- Writes the files that a run changed, and lets everybody run those that it made executable. -/
def writeChanges (before after : FileTree) : IO Unit := do
  let cwd ← IO.currentDir
  for (place, file) in after.changedFiles before do
    if let .text text := file.content then
      IO.FS.createDirAll (cwd / absoluteText place.dropLast)
      IO.FS.writeFile (cwd / absoluteText place) text
  for (place, entry) in after.entries do
    if let .file ⟨_, true⟩ := entry then
      if before.get? place ≠ some entry then
        IO.setAccessRights (cwd / absoluteText place) executableRights

def execute (words : List String) : IO UInt32 := do
  let cwd := Path.names ⟨(← IO.currentDir).toString⟩
  let disk ←
    match Invocation.parse words with
    | .ok invocation => snapshot cwd invocation
    | .error _ => pure ⟨.empty, cwd⟩
  let outcome := Outcome.ofWords disk words
  writeChanges disk.tree outcome.disk.tree
  IO.print outcome.stdout
  if let some e := outcome.error then IO.eprintln e.message
  return outcome.exit.toUInt32

end ImportFence.Program

/-- Runs the command line, and fails with 2 where the disk cannot be read or written. -/
def main (words : List String) : IO UInt32 := do
  try ImportFence.Program.execute words
  catch e =>
    IO.eprintln ("error: " ++ toString e)
    return 2
