import EdgeRoutes.Path

/-! The files that a run reads and writes.

A run touches files in three ways only: it asks whether a path names a file, reads a text,
and writes a text. Whatever offers these can carry a run.

Directory trees held as values are such a thing. A tree is the whole of what a process can
reach: it goes from the top down, and relative paths start in one of its directories. Paths
are resolved one name after another, so every name before the last must lead to a directory;
`.` stays where it is, `..` goes back, and a link is replaced by its target.
-/

set_option autoImplicit false

namespace EdgeRoutes

inductive FileFault where
  | notFound
  | notDirectory
  | isDirectory
  | nameTooLong
  | tooManyLinks
  | denied
  | zeroInName
  | notText
  | other (message : String)
  deriving DecidableEq, Repr

def FileFault.message : FileFault → String
  | .notFound => "No such file or directory (os error 2)"
  | .notDirectory => "Not a directory (os error 20)"
  | .isDirectory => "Is a directory (os error 21)"
  | .nameTooLong => "File name too long (os error 36)"
  | .tooManyLinks => "Too many levels of symbolic links (os error 40)"
  | .denied => "Permission denied (os error 13)"
  | .zeroInName => "file name contained an unexpected NUL byte"
  | .notText => "stream did not contain valid UTF-8"
  | .other message => message

class FileSystem (m : Type → Type) where
  isFile : String → m Bool
  readText : String → m (Except FileFault String)
  writeText : String → String → m (Except FileFault Unit)

inductive Content where
  | text (value : String)
  | bytes (value : List UInt8)
  deriving DecidableEq, Repr

inductive TreeEntry where
  | file (content : Content)
  | directory
  | link (target : String)
  deriving DecidableEq, Repr

/-- What can be done with an entry, going through a directory included. -/
inductive Access where
  | pass
  | read
  | write
  deriving DecidableEq, Repr

/-- Entries by the names that lead to them from the top, the directory in which relative paths
start, and what is refused of some entries for rights, room or damage. -/
structure FileTree where
  entries : List (List String × TreeEntry) := []
  home : List String := []
  refusals : List ((List String × Access) × FileFault) := []
  deriving DecidableEq, Repr

namespace FileTree

/-- The directories from the top to the one where paths start are always there. -/
def find? (tree : FileTree) (names : List String) : Option TreeEntry :=
  if names.isPrefixOf tree.home then some .directory else tree.entries.lookup names

def permit (tree : FileTree) (names : List String) (access : Access) : Except FileFault Unit :=
  (tree.refusals.lookup (names, access)).elim (.ok ()) .error

/-- Where a path leads: to an entry, or to a free name in a directory. -/
inductive Place where
  | entry (names : List String) (entry : TreeEntry)
  | free (names : List String)

def nameLimit : Nat := 255

def pathLimit : Nat := 4095

def linkLimit : Nat := 40

def start (directory : List String) (path : String) : List String :=
  if Path.isAbsolute path then [] else directory

/-- Where one name leads from a directory: into a directory, to a link, or to a place that has
nothing below it. -/
inductive Turn where
  | into (directory : List String)
  | link (target : String)
  | ending (place : Place) (beyond : FileFault)

def arrive (tree : FileTree) (names : List String) : Turn :=
  match tree.find? names with
  | some .directory => .into names
  | some (.file content) => .ending (.entry names (.file content)) .notDirectory
  | some (.link target) => .link target
  | none => .ending (.free names) .notFound

/-- Takes one name. An empty one stays where it is, and nothing is above the top. -/
def turn (tree : FileTree) (directory : List String) (name : String) : Except FileFault Turn :=
  if name = "" then .ok (.into directory)
  else do
    tree.permit directory .pass
    if name = "." then .ok (.into directory)
    else if name = ".." then .ok (.into directory.dropLast)
    else if nameLimit < name.utf8ByteSize then .error .nameTooLong
    else .ok (tree.arrive (directory ++ [name]))

/-- Goes along the names of a path from a directory, where `jump` follows what a link and the
names behind it make. -/
def walk (tree : FileTree) (jump : List String → List String → Except FileFault Place)
    (directory : List String) : List String → Except FileFault Place
  | [] => .ok (.entry directory .directory)
  | name :: names => do
    match ← tree.turn directory name with
    | .into directory => walk tree jump directory names
    | .link target => jump (start directory target) (Path.parts target ++ names)
    | .ending place beyond => if names.isEmpty then .ok place else .error beyond

def follow (tree : FileTree) : Nat → List String → List String → Except FileFault Place
  | 0 => tree.walk fun _ _ => .error .tooManyLinks
  | links + 1 => tree.walk (tree.follow links)

/-- A path without any character leads nowhere. -/
def locate (tree : FileTree) (path : String) : Except FileFault Place :=
  if path.toList.contains '\x00' then .error .zeroInName
  else if pathLimit < path.utf8ByteSize then .error .nameTooLong
  else if path.isEmpty then .error .notFound
  else tree.follow linkLimit (start tree.home path) (Path.parts path)

def isFile (tree : FileTree) (path : String) : Bool :=
  match tree.locate path with
  | .ok (.entry _ (.file _)) => true
  | _ => false

def readText (tree : FileTree) (path : String) : Except FileFault String := do
  match ← tree.locate path with
  | .free _ => .error .notFound
  | .entry names entry =>
    tree.permit names .read
    match entry with
    | .file (.text value) => .ok value
    | .file (.bytes _) => .error .notText
    | _ => .error .isDirectory

def put (tree : FileTree) (names : List String) (entry : TreeEntry) : FileTree :=
  if (tree.entries.lookup names).isSome then
    { tree with entries := tree.entries.map fun present =>
        if present.1 == names then (names, entry) else present }
  else { tree with entries := tree.entries ++ [(names, entry)] }

/-- Writes a file whose directory is there. A new one needs the right to write to it. -/
def write (tree : FileTree) (path : String) (content : Content) : Except FileFault FileTree := do
  match ← tree.locate path with
  | .entry names (.file _) =>
    tree.permit names .write
    return tree.put names (.file content)
  | .entry _ _ => .error .isDirectory
  | .free names =>
    tree.permit names.dropLast .write
    return tree.put names (.file content)

def remove? (tree : FileTree) (path : String) : Option FileTree :=
  match tree.locate path with
  | .ok (.entry names (.file _)) =>
    some { tree with entries := tree.entries.filter fun present => present.1 != names }
  | _ => none

def add (tree : FileTree) (path : String) (entry : TreeEntry) : FileTree :=
  let names := start tree.home path ++ (Path.segments path).filter (· != ".")
  let above := (List.range (names.length - 1)).map fun count => names.take (count + 1)
  let tree := above.foldl (fun tree names =>
    if (tree.find? names).isSome then tree else tree.put names .directory) tree
  tree.put names entry

instance : FileSystem (StateM FileTree) where
  isFile path := do return (← get).isFile path
  readText path := do return (← get).readText path
  writeText path text := do
    match (← get).write path (.text text) with
    | .error fault => return .error fault
    | .ok tree => set tree; return .ok ()

end FileTree

end EdgeRoutes
