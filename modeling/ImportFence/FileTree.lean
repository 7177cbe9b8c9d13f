import ImportFence.Config.Basic
import ImportFence.Sorted

/-!
# Files and directories

A file tree lists what stands at which place, a place being the names on the way down from the root
directory. A written path is followed step by step from the current directory; every step but the
last has to lead to a directory.
-/

namespace ImportFence

/-- The content of a file. Of bytes that are no text only the lines before the first one that is
none can be read. -/
inductive Content where
  | text (s : String)
  | undecodable (lines : List String)
  deriving DecidableEq, Inhabited

namespace Content

/-- The bytes between line feeds; always at least one piece. -/
def splitLines : List UInt8 → List (List UInt8)
  | [] => [[]]
  | b :: bs =>
    if b = 10 then [] :: splitLines bs
    else
      match splitLines bs with
      | [] => [[b]]
      | line :: lines => (b :: line) :: lines

/-- The lines before the first one that is no text. -/
def readableLines : List (List UInt8) → List String
  | [] => []
  | line :: lines =>
    match String.fromUTF8? ⟨line.toArray⟩ with
    | some s => s :: readableLines lines
    | none => []

def ofBytes (bytes : ByteArray) : Content :=
  match String.fromUTF8? bytes with
  | some s => .text s
  | none => .undecodable (readableLines (splitLines bytes.toList))

/-- A line without the carriage return before its end. -/
def chomp (line : String) : String :=
  match line.toList.reverse with
  | '\r' :: rest => String.ofList rest.reverse
  | _ => line

/-- Lines without the carriage returns before their ends; the last piece has no end. -/
def chompAll : List String → List String
  | [] => []
  | [last] => [last]
  | line :: lines => chomp line :: chompAll lines

def lines : Content → List String
  | .text s => chompAll (Text.split '\n' s)
  | .undecodable ls => ls.map chomp

end Content

/-- A file. -/
structure File where
  content : Content
  executable : Bool
  deriving DecidableEq, Inhabited

/-- What stands at a place. -/
inductive Entry where
  | directory
  | file (f : File)
  deriving DecidableEq, Inhabited

namespace Entry

def isDirectory : Entry → Bool
  | .directory => true
  | .file _ => false

/-- A file with a text that nobody may run. -/
def ofText (text : String) : Entry :=
  .file ⟨.text text, false⟩

end Entry

/-- The names on the way from the root directory to an entry. -/
abbrev Place := List String

namespace Place

/-- Places are ordered name by name, so that what stands below a directory comes right behind it. -/
def compare (a b : Place) : Ordering :=
  List.compareLex Ord.compare a b

/-- The directories on the way to a place, innermost first, the place itself included. -/
def upward (p : Place) : List Place :=
  ((List.range (p.length + 1)).map p.take).reverse

/-- The relative path to a place, given by the names on the way. -/
def path (p : Place) : Path :=
  ⟨Text.join "/" p⟩

end Place

/-- What stands where, ascending by place. The root directory is not listed. -/
structure FileTree where
  entries : List (Place × Entry)
  deriving DecidableEq, Inhabited

namespace FileTree

/-- The tree of which nothing but the root directory exists. -/
def empty : FileTree := ⟨[]⟩

def get? (t : FileTree) (p : Place) : Option Entry :=
  if p = [] then some .directory else t.entries.lookup p

/-- Puts an entry at its place among ascending ones, instead of what stood there. -/
def insertEntry (p : Place) (e : Entry) : List (Place × Entry) → List (Place × Entry)
  | [] => [(p, e)]
  | (q, d) :: rest =>
    match Place.compare p q with
    | .lt => (p, e) :: (q, d) :: rest
    | .eq => (p, e) :: rest
    | .gt => (q, d) :: insertEntry p e rest

def put (t : FileTree) (p : Place) (e : Entry) : FileTree :=
  ⟨insertEntry p e t.entries⟩

/-- The tree in which the directories on the way from one place along some names exist. -/
def addDirectories (t : FileTree) (here : Place) : List String → FileTree
  | [] => t
  | name :: names =>
    let next := here ++ [name]
    (if (t.get? next).isSome then t else t.put next .directory).addDirectories next names

/-- The tree with an entry at a place, and the directories on the way to it. -/
def putDeep (t : FileTree) (p : Place) (e : Entry) : FileTree :=
  (t.addDirectories [] p.dropLast).put p e

/-- The tree without what stands at a place and below it. -/
def erase (t : FileTree) (p : Place) : FileTree :=
  ⟨t.entries.filter fun (q, _) => !p.isPrefixOf q⟩

/-- What stands below a directory, with the names on the way from there. -/
def below (t : FileTree) (root : Place) : List (Place × Entry) :=
  t.entries.filterMap fun (p, e) =>
    match root.isPrefixOf? p with
    | some [] => none
    | some rel => some (rel, e)
    | none => none

/-- The files whose content is new in a tree, compared with another. -/
def changedFiles (t before : FileTree) : List (Place × File) :=
  t.entries.filterMap fun (p, e) =>
    match e, before.get? p with
    | .directory, _ => none
    | .file f, some (.file g) => if f.content = g.content then none else some (p, f)
    | .file f, _ => some (p, f)

/-- Fails unless a place is a directory. -/
def enter (t : FileTree) (here : Place) : Except AccessError Unit :=
  match t.get? here with
  | some .directory => .ok ()
  | some (.file _) => .error .notDirectory
  | none => .error .notFound

/-- The place one step further. Upward of the root directory is the root directory. -/
def step (t : FileTree) (here : Place) : Component → Except AccessError Place
  | .root => .ok []
  | .current => (t.enter here).map fun _ => here
  | .parent => (t.enter here).map fun _ => here.dropLast
  | .name n => (t.enter here).map fun _ => here ++ [n]

end FileTree

/-- A file tree seen from a current directory. -/
structure Disk where
  tree : FileTree
  cwd : Place
  deriving DecidableEq, Inhabited

namespace Disk

/-- The place that a path leads to; nothing needs to stand there. -/
def locate (d : Disk) (p : Path) : Except AccessError Place :=
  p.components.foldlM d.tree.step d.cwd

def find (d : Disk) (p : Path) : Except AccessError Entry := do
  match d.tree.get? (← d.locate p) with
  | some e => return e
  | none => throw .notFound

def isDirectory (d : Disk) (p : Path) : Bool :=
  match d.find p with
  | .ok .directory => true
  | _ => false

def isFile (d : Disk) (p : Path) : Bool :=
  match d.find p with
  | .ok (.file _) => true
  | _ => false

def has (d : Disk) (p : Path) : Bool :=
  (d.find p).isOk

/-- The current directory as an absolute path. -/
def here (d : Disk) : Path :=
  ⟨"/" ++ d.cwd.path.text⟩

/-- The absolute form of a path; neither `.` nor `..` is resolved. -/
def absolute (d : Disk) (p : Path) : Path :=
  if p.isAbsolute then p else d.here.join p

def readText (d : Disk) (p : Path) : Except AccessError String := do
  match ← d.find p with
  | .file ⟨.text s, _⟩ => return s
  | .file ⟨.undecodable _, _⟩ => throw .invalidText
  | .directory => throw .isDirectory

/-- Replaces the content of a file, or creates it in an existing directory. -/
def writeText (d : Disk) (p : Path) (text : String) : Except AccessError Disk := do
  let place ← d.locate p
  match d.tree.get? place with
  | some .directory => throw .isDirectory
  | some (.file f) => return { d with tree := d.tree.put place (.file ⟨.text text, f.executable⟩) }
  | none => return { d with tree := d.tree.put place (Entry.ofText text) }

def setExecutable (d : Disk) (p : Path) : Except AccessError Disk := do
  let place ← d.locate p
  match d.tree.get? place with
  | some (.file f) => return { d with tree := d.tree.put place (.file ⟨f.content, true⟩) }
  | some .directory => return d
  | none => throw .notFound

/-- Creates a directory unless it exists. -/
def makeDirectory (d : Disk) (p : Path) : Except AccessError Disk := do
  let place ← d.locate p
  match d.tree.get? place with
  | some .directory => return d
  | some (.file _) => throw .exists
  | none => return { d with tree := d.tree.put place .directory }

end Disk

end ImportFence
