import ChangeImpact.Path

/-!
# File trees and file systems

A tree of files with symbolic links, and a file system as a program sees it from its
working directory. Directories list their entries in any order. Names, paths and the targets
of links are raw: nothing keeps a directory from holding a name that is no text.

A path is followed part by part. A link is followed from the directory it stands
in, at most forty of them on one path.

## Main definitions

* `FileTree`, `FileTree.place`: trees, and how they are made.
* `FileSystem`, `FileSystem.ofTree`: a working directory with the directories around it.
* `FileSystem.resolve`: where a path leads.
* `FileSystem.read`, `FileSystem.isDirectory`, `FileSystem.accepts`: what can be done there.
-/

namespace ChangeImpact

inductive FileTree where
  | file (content : ByteArray)
  | link (target : RawText)
  | directory (entries : List (RawText × FileTree))

abbrev Entries : Type := List (RawText × FileTree)

/-- Why a path leads to nothing that can be used. -/
inductive PathFault where
  | noSuchFile
  | notDirectory
  | isDirectory
  | nameTooLong
  | tooManyLinks
  | holdsNul
deriving DecidableEq, Inhabited

def PathFault.message : PathFault → String
  | .noSuchFile => "No such file or directory (os error 2)"
  | .notDirectory => "Not a directory (os error 20)"
  | .isDirectory => "Is a directory (os error 21)"
  | .nameTooLong => "File name too long (os error 36)"
  | .tooManyLinks => "Too many levels of symbolic links (os error 40)"
  | .holdsNul => "file name contained an unexpected NUL byte"

inductive TextFault where
  | path (fault : PathFault)
  | notText
deriving DecidableEq, Inhabited

def TextFault.message : TextFault → String
  | .path fault => fault.message
  | .notText => "stream did not contain valid UTF-8"

/-! ## Trees -/

namespace FileTree

/-- The entries of a directory; other nodes have none. -/
def entries : FileTree → Entries
  | .directory es => es
  | _ => []

/-- Put something into a directory, in place of what has its name. -/
def setEntry (name : RawText) (node : FileTree) : Entries → Entries
  | [] => [(name, node)]
  | (other, old) :: rest =>
    if other = name then (name, node) :: rest else (other, old) :: setEntry name node rest

/-- Put something into a tree under a list of names; directories on the way are made. -/
def place (node : FileTree) : List RawText → FileTree → FileTree
  | [], _ => node
  | name :: rest, tree =>
    let inner := (tree.entries.lookup name).getD (.directory [])
    .directory (setEntry name (place node rest inner) tree.entries)

/-- The tree with the given nodes at the given paths; the last one counts where two have the
same path. -/
def ofList (nodes : List (String × FileTree)) : FileTree :=
  nodes.foldl (fun tree (path, node) => place node ((Path.parts path).map RawText.ofText) tree)
    (.directory [])

end FileTree

/-- A working directory: its entries and those of the directories around it, the innermost
first and the root last. -/
structure FileSystem where
  around : List Entries

namespace FileSystem

/-! ## Following a path -/

inductive Target where
  | file (content : ByteArray)
  /-- The entries of the directory and of the directories around it, the innermost first. -/
  | directory (around : List Entries)

/-- What a path leads to, and how many links may still be followed from there. -/
structure Resolved where
  target : Target
  budget : Nat

def longestName : Nat := 255

def longestPath : Nat := 4095

def mostLinks : Nat := 40

/-- Where a path begins that is followed from a directory: at the root, if it begins with a
slash. -/
def startOf (around : List Entries) (path : RawText) : List Entries :=
  if path.isAbsolute then around.drop (around.length - 1) else around

/-- Follow the parts of a path from a directory. -/
def resolve (budget : Nat) (around : List Entries) : List RawText → Except PathFault Resolved
  | [] => .ok ⟨.directory around, budget⟩
  | part :: rest =>
    if part = "" || part = "." then resolve budget around rest
    else if part = ".." then resolve budget around.tail rest
    else if longestName < part.bytes.length then .error .nameTooLong
    else
      match (around.headD []).lookup part with
      | none => .error .noSuchFile
      | some (.directory entries) => resolve budget (entries :: around) rest
      | some (.file content) =>
        if rest.isEmpty then .ok ⟨.file content, budget⟩ else .error .notDirectory
      | some (.link target) =>
        match budget with
        | 0 => .error .tooManyLinks
        | left + 1 => resolve left (startOf around target) (target.pieces ++ rest)
termination_by parts => (budget, parts.length)

theorem budget_resolve_le {budget : Nat} {around : List Entries} {parts : List RawText}
    {found : Resolved} (h : resolve budget around parts = .ok found) : found.budget ≤ budget := by
  fun_induction resolve budget around parts <;> grind

/-- A tree in a directory of which nothing else is known. -/
def ofTree (tree : FileTree) : FileSystem := ⟨[tree.entries, []]⟩

/-- Follow a path from the working directory. -/
def follow (fs : FileSystem) (path : RawText) : Except PathFault Resolved :=
  if path.bytes.contains 0 then .error .holdsNul
  else if path.bytes = [] then .error .noSuchFile
  else if longestPath < path.bytes.length then .error .nameTooLong
  else resolve mostLinks (startOf fs.around path) path.pieces

def read (fs : FileSystem) (path : RawText) : Except PathFault ByteArray := do
  match (← fs.follow path).target with
  | .file content => return content
  | .directory _ => throw .isDirectory

def readText (fs : FileSystem) (path : RawText) : Except TextFault String :=
  match fs.read path with
  | .error fault => .error (.path fault)
  | .ok content =>
    match String.fromUTF8? content with
    | some text => .ok text
    | none => .error .notText

/-- The directory at a path, if there is one: its entries and those around it, and the links
that may still be followed. -/
def directory? (fs : FileSystem) (path : RawText) : Option (List Entries × Nat) :=
  match fs.follow path with
  | .ok ⟨.directory around, budget⟩ => some (around, budget)
  | _ => none

def isDirectory (fs : FileSystem) (path : RawText) : Bool := (fs.directory? path).isSome

def exists? (fs : FileSystem) (path : RawText) : Bool := (fs.follow path).isOk

/-! ## Making files -/

/-- The directory at a path after all that is missing on the way has been made. -/
def makeWay (budget : Nat) (around : List Entries) : List RawText → Option (List Entries × Nat)
  | [] => some (around, budget)
  | part :: rest =>
    if part = "" || part = "." then makeWay budget around rest
    else if part = ".." then makeWay budget around.tail rest
    else if longestName < part.bytes.length then none
    else
      match (around.headD []).lookup part with
      | none => makeWay budget ([] :: around) rest
      | some _ =>
        match resolve budget around [part] with
        | .ok ⟨.directory inner, left⟩ => makeWay left inner rest
        | _ => none

/-- Whether a file can be made, or made anew, in a directory that is made if need be. -/
def accepts (fs : FileSystem) (directory name : RawText) : Bool :=
  match makeWay mostLinks (startOf fs.around directory) directory.pieces with
  | none => false
  | some (around, budget) =>
    match resolve budget around [name] with
    | .ok ⟨.file _, _⟩ => true
    | .ok ⟨.directory _, _⟩ => false
    | .error .noSuchFile => true
    | .error _ => false

/-- Put something into a file system; what is missing on the way is made. -/
def place (fs : FileSystem) (path : String) (node : FileTree) : FileSystem :=
  let parts := Path.parts path
  let names := parts.dropWhile (· == "..")
  let level := if Text.startsWith path "/" then fs.around.length - 1
    else parts.length - names.length
  ⟨fs.around.modify level fun es =>
    (FileTree.place node (names.map RawText.ofText) (.directory es)).entries⟩

end FileSystem

end ChangeImpact
