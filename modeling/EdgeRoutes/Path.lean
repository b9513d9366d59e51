/-! Paths as texts with slashes.

A path is cut at every slash, so it always has at least one part and may have empty ones.
Its segments are the parts that are not empty.
-/

set_option autoImplicit false

namespace EdgeRoutes.Path

/-- Cuts at every slash; `n` slashes give `n + 1` pieces. -/
def splitSlash : List Char → List (List Char)
  | [] => [[]]
  | first :: rest =>
    if first = '/' then [] :: splitSlash rest
    else
      match splitSlash rest with
      | [] => [[first]]
      | part :: others => (first :: part) :: others

def parts (path : String) : List String :=
  (splitSlash path.toList).map String.ofList

def segments (path : String) : List String :=
  (parts path).filter fun part => !part.isEmpty

def hasExtension (path : String) : Bool :=
  (parts path).getLast?.any fun last => last.toList.contains '.'

def isAbsolute (path : String) : Bool :=
  path.toList.head? == some '/'

def endsInSlash (path : String) : Bool :=
  path.toList.getLast? == some '/'

/-- The path without its last slash, if it ends in one; further slashes stay. -/
def dropTrailingSlash (path : String) : String :=
  if endsInSlash path then String.ofList path.toList.dropLast else path

/-- Puts a file name below a directory. One slash is put between unless the directory is
empty or already ends in one; an absolute name stands alone. -/
def join (directory name : String) : String :=
  if isAbsolute name then name
  else if directory.isEmpty || endsInSlash directory then directory ++ name
  else directory ++ "/" ++ name

end EdgeRoutes.Path
