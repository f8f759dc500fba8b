import ChangeImpact.CommandLine
import ChangeImpact.Text.Timestamp

/-!
# The program

Reads the files, acts on the arguments and writes what comes of it. Revisions cannot
be compared from here and no chat service can be reached, so without a list of changed
classes nothing counts as changed, and the advisory is always the fixed text.
-/

namespace ChangeImpact.Program

/-- The directory at a path with all that is in it, links followed. A link back to one of the
directories around it is left out, and so is what cannot be read. -/
partial def readTree (around : List String) (path : String) : IO FileTree := do
  let place ← IO.FS.realPath path
  let mut entries : Entries := []
  for entry in ← place.readDir do
    let inner := Path.join path entry.fileName
    try
      if ← entry.path.isDir then
        let real := toString (← IO.FS.realPath inner)
        if !(toString place :: around).contains real then
          entries := (entry.fileName, ← readTree (toString place :: around) inner) :: entries
      else entries := (entry.fileName, .file (← IO.FS.readBinFile inner)) :: entries
    catch _ => pure ()
  return .directory entries.reverse

def readNode (path : String) : IO FileTree := do
  if ← (← IO.FS.realPath path).isDir then readTree [] path
  else return .file (← IO.FS.readBinFile path)

def addPath (fs : FileSystem) (path : String) : IO FileSystem := do
  try
    let node ← readNode path
    return fs.place path node
  catch _ => return fs

/-- The part of the file system that some options name. -/
def readFiles (o : CommandLine.Options) : IO FileSystem := do
  let depth := (Path.parts (toString (← IO.currentDir))).length
  let fs ← addPath ⟨List.replicate (depth + 1) []⟩ o.root
  match o.config? with
  | some path => addPath fs path
  | none => return fs

def readEnvironment (s : AdvisorySettings) : IO (String → Option String) := do
  let url? ← IO.getEnv s.urlVariable
  let key? ← IO.getEnv s.keyVariable
  return fun name =>
    if name = s.urlVariable then url? else if name = s.keyVariable then key? else none

/-- Write a report, first to learn the time from its file and then for good. -/
def writeReport (directory path : String) (report : Report) : IO Unit := do
  IO.FS.createDirAll directory
  IO.FS.writeFile path (report.toJson "").pretty
  let written := (← (← IO.FS.realPath path).metadata).modified
  let time : Timestamp := ⟨written.sec.toNat, written.nsec.toNat⟩
  IO.FS.writeFile path (report.toJson time.text).pretty

def display (outcome : Outcome) : IO Unit := do
  let out ← IO.getStdout
  let wanted := (← out.isTty) && (← IO.getEnv "NO_COLOR").isNone
  for line in outcome.summaryLines wanted do
    IO.eprint line
  for line in outcome.testLines do
    out.putStr line
  out.flush

def act (o : CommandLine.Options) : IO UInt32 := do
  let fs ← readFiles o
  let settings := match Project.inDirectory fs o.root o.config? with
    | .ok project => project.config.advisory
    | .error _ => {}
  let environment ← readEnvironment settings
  let around : CommandLine.Surroundings :=
    { fs
      environment
      compare := fun _ _ _ => none
      connect := fun _ _ => .failure (.unreachable "no connection") }
  match o.execute around with
  | .error error =>
    IO.eprintln ("error: " ++ error.message)
    return 1
  | .ok outcome =>
    if let some (path, report) := outcome.report? then
      let directory := String.ofList (path.toList.take (path.length - Report.fileName.length))
      try writeReport directory path report catch _ => pure ()
    display outcome
    return 0

end ChangeImpact.Program

def main (arguments : List String) : IO UInt32 := do
  match ChangeImpact.CommandLine.Options.ofArguments arguments with
  | .error error =>
    if error.exitCode = 0 then IO.print error.output else IO.eprint error.output
    return error.exitCode.toUInt32
  | .ok options => ChangeImpact.Program.act options
