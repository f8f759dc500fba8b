import ChangeImpact.FileTree.Basic

/-!
# Sources in a file system

The Java sources below a directory. Hidden entries and the output of builds are
left out at every level below the directory itself, links are followed, and the
paths come in the order of their parts, whatever order directories list their
entries in. An entry whose path is too long to be followed is not seen. A name that
is no text is never taken for a hidden one, not even if it begins with a dot.
-/

namespace ChangeImpact.FileSystem

/-- Names that never hold sources. -/
def outputNames : List String := ["target", "build", "out", "node_modules"]

def isVisible (name : RawText) : Bool :=
  match name.text? with
  | some text => !Text.startsWith text "." && !outputNames.contains text
  | none => true

/-- The sources among the entries of the directory at a path and below, as lists of names. -/
def sourcesAmong (path : RawText) (budget : Nat) (around : List Entries) :
    Entries → List (List RawText)
  | [] => []
  | (name, node) :: rest =>
    let inside := path.join name
    let found :=
      if isVisible name && inside.bytes.length ≤ longestPath then
        match node with
        | .file _ => if name.isJavaName then [[name]] else []
        | .directory entries =>
          (sourcesAmong inside budget (entries :: around) entries).map (name :: ·)
        | .link target =>
          match budget with
          | 0 => []
          | left + 1 =>
            match _h : resolve left (startOf around target) target.pieces with
            | .ok ⟨.directory inner, left'⟩ =>
              (sourcesAmong inside left' inner (inner.headD [])).map (name :: ·)
            | .ok ⟨.file _, _⟩ => if name.isJavaName then [[name]] else []
            | .error _ => []
      else []
    found ++ sourcesAmong path budget around rest
termination_by entries => (budget, sizeOf entries)
decreasing_by
  · apply Prod.Lex.right
    simp +arith
  · apply Prod.Lex.left
    exact Nat.lt_succ_of_le (budget_resolve_le _h)
  · apply Prod.Lex.right
    simp +arith

def namesLe (a b : List RawText) : Bool := decide (¬ b < a)

/-- The Java sources below a directory. -/
def scan (fs : FileSystem) (directory : RawText) : List RawText :=
  match fs.directory? directory with
  | none => []
  | some (around, budget) =>
    ((sourcesAmong directory budget around (around.headD [])).mergeSort namesLe).map
      (·.foldl RawText.join directory)

/-- The Java sources below a directory as they are shown. -/
def sources (fs : FileSystem) (directory : String) : List String :=
  (fs.scan directory).map RawText.shown

end ChangeImpact.FileSystem
