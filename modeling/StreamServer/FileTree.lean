import StreamServer.Bytes
import StreamServer.Fault
import StreamServer.Text.Pieces

/-!
# Files

A tree of directories and files, and what opening a path in it gives.  Only what the system itself
would check is checked, in its order: the name as a whole, then one component after the other from
the root or from the current directory.
-/

namespace StreamServer

/-- A file with its content, or a directory with named entries. -/
inductive FileTree
  | file (content : Bytes)
  | directory (entries : List (Bytes × FileTree))

namespace FileTree

/-- The longest name of an entry. -/
def maxNameLength : Nat := 255

/-- Paths are shorter than this. -/
def maxPathLength : Nat := 4096

/-- The error numbers of a failed look-up. -/
def notFound : Fault := .system 2

def notADirectory : Fault := .system 20

def isADirectory : Fault := .system 21

def nameTooLong : Fault := .system 36

/-- The entry of a directory with a name. -/
def entry? (entries : List (Bytes × FileTree)) (name : Bytes) : Option FileTree :=
  (entries.find? fun e => e.1 == name).map Prod.snd

/--
Follows components from a node whose ancestors are given, the nearest first.  An empty component, as
before and after every doubled slash, stays where it is, but only a directory has components.
-/
def walk : List FileTree → FileTree → List Bytes → Except Fault (List FileTree × FileTree)
  | up, node, [] => .ok (up, node)
  | _, .file _, _ :: _ => .error notADirectory
  | up, .directory entries, name :: rest =>
      if name = [] ∨ name = [0x2E] then walk up (.directory entries) rest
      else if name = [0x2E, 0x2E] then
        match up with
        | [] => walk [] (.directory entries) rest
        | parent :: above => walk above parent rest
      else if maxNameLength < name.length then .error nameTooLong
      else
        match entry? entries name with
        | none => .error notFound
        | some node => walk (.directory entries :: up) node rest

/-- The node at a path, which begins at the root if it begins with a slash and otherwise at the
current directory, given by its names. -/
def resolve (root : FileTree) (current : List Bytes) (path : Bytes) : Except Fault FileTree := do
  let found ←
    match path with
    | 0x2F :: rest => walk [] root (pieces 0x2F rest)
    | _ => do
        let here ← walk [] root current
        walk here.1 here.2 (pieces 0x2F path)
  .ok found.2

/-- The content of the file at a path. -/
def read (root : FileTree) (current : List Bytes) (path : Bytes) : Except Fault Bytes :=
  if 0 ∈ path then
    .error (.remark .invalidInput "file name contained an unexpected NUL byte")
  else if path = [] then .error notFound
  else if maxPathLength ≤ path.length then .error nameTooLong
  else
    match resolve root current path with
    | .error f => .error f
    | .ok (.directory _) => .error isADirectory
    | .ok (.file content) => .ok content

end FileTree

end StreamServer
