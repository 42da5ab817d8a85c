import ManifestRelay.Fetch.Error
import ManifestRelay.Text.Utf8

/-!
# Trees of files on a disk

A disk answers what lies at a path, given as names below one directory.  A
`Node` is a tree of files, directories and symbolic links, and `Node.find?` is
the disk that it makes: names are followed from left to right, a symbolic link
stands for its target, and at most `maxLinks` of them are followed.
-/

namespace ManifestRelay.Snapshot

inductive DiskError where
  | missing
  | notDirectory
  | isDirectory
  | nameTooLong
  | tooManyLinks
  | nullByte
  | notText
deriving DecidableEq, Repr, Inhabited

namespace DiskError

def message : DiskError → String
  | .missing => "No such file or directory (os error 2)"
  | .notDirectory => "Not a directory (os error 20)"
  | .isDirectory => "Is a directory (os error 21)"
  | .nameTooLong => "File name too long (os error 36)"
  | .tooManyLinks => "Too many levels of symbolic links (os error 40)"
  | .nullByte => "file name contained an unexpected NUL byte"
  | .notText => "stream did not contain valid UTF-8"

def toFetchError (e : DiskError) : Fetch.FetchError := .io e.message

def isAbsence : DiskError → Bool
  | .missing | .notDirectory => true
  | _ => false

end DiskError

/-- A file that may grow between being measured and being read. -/
structure Content where
  /-- Number of bytes when it was measured. -/
  measured : Nat
  data : List UInt8
deriving DecidableEq, Repr, Inhabited

namespace Content

/-- A file that nobody writes to. -/
def ofBytes (data : List UInt8) : Content := ⟨data.length, data⟩

end Content

inductive Node where
  | file (content : Content)
  | link (target : String)
  | directory (entries : List (String × Node))
deriving Repr, Inhabited

/-- Names that lead from a directory down to a node. -/
abbrev Path := List String

/-- What lies at each path below one directory. -/
abbrev Disk := Path → Except DiskError Node

/-- Longest name in bytes. -/
def maxNameSize : Nat := 255

/-- Most symbolic links that one path may pass. -/
def maxLinks : Nat := 40

namespace Node

def entry? (node : Node) (name : String) : Except DiskError Node :=
  match node with
  | directory entries =>
      if maxNameSize < name.utf8ByteSize then .error .nameTooLong
      else
        match entries.lookup name with
        | some child => .ok child
        | none => .error .missing
  | _ => .error .notDirectory

def targetNames (target : String) : List String :=
  (target.toList.splitOn '/').map String.ofList

/-- Follow names down from the node in front of `trail`; the nodes that were
passed on the way lie behind it. A target outside of the tree leads nowhere.

Names that are empty, `.` or `..` stand in targets of links only. They are stepped
over behind a file too, so that a target such as `file/.` or `file/..` leads on,
where an operating system may answer that the file is no directory. -/
def follow (links : Nat) (trail : List Node) (names : List String) : Except DiskError Node :=
  match names, trail with
  | _, [] => .error .missing
  | [], node :: _ => .ok node
  | name :: rest, node :: above =>
      if name = "" || name = "." then follow links (node :: above) rest
      else if name = ".." then follow links above rest
      else
        match node.entry? name with
        | .error e => .error e
        | .ok (link target) =>
            match links with
            | 0 => .error .tooManyLinks
            | links + 1 =>
                if target.startsWith "/" then .error .missing
                else follow links (node :: above) (targetNames target ++ rest)
        | .ok child => follow links (child :: node :: above) rest
termination_by (links, names.length)

/-- The disk of a tree. Each name on a path is held against `maxNameSize`; the
length of the whole path is not limited here, since what an operating system
allows for it includes the path of the directory that holds the tree. -/
def find? (root : Node) : Disk := fun path =>
  if path.any (·.contains '\x00') then .error .nullByte
  else follow maxLinks [root] path

mutual

/-- The files of a tree with their paths; links are not followed. -/
def files : Node → List (Path × Content)
  | file content => [([], content)]
  | link _ => []
  | directory entries => filesOf entries

def filesOf : List (String × Node) → List (Path × Content)
  | [] => []
  | (name, node) :: rest =>
      node.files.map (fun (path, content) => (name :: path, content)) ++ filesOf rest

end

def ownFiles : List (String × Node) → List (Path × Content)
  | [] => []
  | (name, file content) :: rest => ([name], content) :: ownFiles rest
  | _ :: rest => ownFiles rest

/-- Put an entry in place of the one of its name, or behind all others. -/
def putEntry (name : String) (node : Node) : List (String × Node) → List (String × Node)
  | [] => [(name, node)]
  | entry :: rest =>
      if entry.1 = name then (name, node) :: rest else entry :: putEntry name node rest

/-- Change what lies at a path, making the directories that lead to it. -/
def alter (f : Option Node → Node) (node : Option Node) : Path → Node
  | [] => f node
  | name :: rest =>
      let entries := match node with
        | some (directory entries) => entries
        | _ => []
      directory (putEntry name (alter f (entries.lookup name) rest) entries)

def insert (root : Node) (path : Path) (node : Node) : Node :=
  alter (fun _ => node) (some root) path

/-- Make a directory at a path unless something lies there. -/
def makeDirectory (root : Node) (path : Path) : Node :=
  alter (·.getD (directory [])) (some root) path

end Node

end ManifestRelay.Snapshot
