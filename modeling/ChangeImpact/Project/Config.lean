import ChangeImpact.FileTree.Basic
import ChangeImpact.Yaml.Node

/-!
# Configuration

The settings of a project, read from a YAML file whose entries are all optional.

## Main definitions

* `Config`, `AdvisorySettings`: the settings with their defaults.
* `Config.parse`: the settings in a text.
* `Config.load`, `Config.loadOrDefault`: the settings in a file.
-/

namespace ChangeImpact

structure AdvisorySettings where
  enabled : Bool := true
  model : String := "gpt-4.1"
  /-- The environment variable that holds the address of the service. -/
  urlVariable : String := "OPENAI_API_URL"
  /-- The environment variable that holds the key to the service. -/
  keyVariable : String := "OPENAI_API_KEY"
  /-- How long an answer is waited for. -/
  timeoutSeconds : Nat := 30
deriving DecidableEq, Inhabited

structure Config where
  basePackage : String := "com.example"
  sourceDir : String := "src/main/java"
  testDir : String := "src/test/java"
  reportDir : String := "build/reports/ripple"
  advisory : AdvisorySettings := {}
deriving DecidableEq, Inhabited

namespace Config

def sourcePath (c : Config) (root : String) : String := Path.join root c.sourceDir

def testPath (c : Config) (root : String) : String := Path.join root c.testDir

def reportPath (c : Config) (root : String) : String := Path.join root c.reportDir

end Config

/-! ## Values -/

inductive SettingsFault where
  | yaml (fault : Yaml.Fault)
  | notMapping
  | notText
  | notBoolean
  | notNumber
  | repeated (name : String)
deriving DecidableEq, Inhabited

def SettingsFault.message : SettingsFault → String
  | .yaml fault => fault.message
  | .notMapping => "invalid type, expected a mapping"
  | .notText => "invalid type, expected a string"
  | .notBoolean => "invalid type, expected a boolean"
  | .notNumber => "invalid type, expected an unsigned number"
  | .repeated name => "duplicate field " ++ name

namespace Settings

open Yaml

/-- The text of a scalar, however it is written. -/
def text (d : Document) (n : Node) : Except SettingsFault String :=
  match d.target n with
  | .scalar _ _ text => .ok text
  | _ => .error .notText

/-- The text of a scalar that may stand for something else than text: a plain one, or a literal
one with the right tag. -/
def plainText? (d : Document) (tag : String) (n : Node) : Option String :=
  match d.target n with
  | .scalar _ .plain text => some text
  | .scalar properties .literal text =>
    if properties.tag? == some ("tag:yaml.org,2002:" ++ tag) then some text else none
  | _ => none

def boolean (d : Document) (n : Node) : Except SettingsFault Bool :=
  match plainText? d "bool" n with
  | some text =>
    if ["true", "True", "TRUE"].contains text then .ok true
    else if ["false", "False", "FALSE"].contains text then .ok false
    else .error .notBoolean
  | none => .error .notBoolean

/-- The value of a digit in a base of sixteen at most. -/
def digit? (base : Nat) (c : Char) : Option Nat := (hexValue? c).filter (· < base)

/-- The number that some digits stand for, if there are any and it fits into 64 bits. -/
def digits? (base : Nat) (cs : List Char) : Option Nat :=
  if cs.isEmpty then none
  else (cs.foldl (fun n? c => do return base * (← n?) + (← digit? base c)) (some 0)).filter
    (· < 18446744073709551616)

/-- An unsigned number of 64 bits: decimal without superfluous zeros, or hexadecimal, octal or
binary behind `0x`, `0o` or `0b`. A plus sign may come first. -/
def number? (cs : List Char) : Option Nat :=
  let unsigned := match cs with
    | '+' :: rest => rest
    | _ => cs
  match unsigned with
  | '0' :: 'x' :: rest => digits? 16 rest
  | '0' :: 'o' :: rest => digits? 8 rest
  | '0' :: 'b' :: rest => digits? 2 rest
  | '0' :: _ :: _ => none
  | _ => digits? 10 unsigned

def number (d : Document) (n : Node) : Except SettingsFault Nat :=
  match (plainText? d "int" n).bind fun text => number? text.toList with
  | some value => .ok value
  | none => .error .notNumber

/-- The entries of a mapping. Where nothing is written, there are none. -/
def entries (d : Document) (n : Node) : Except SettingsFault (List (Node × Node)) :=
  match d.target n with
  | .mapping _ entries => .ok entries
  | .scalar _ .plain "" => .ok []
  | _ => .error .notMapping

/-- How a named entry changes settings, if it has to do with them. -/
abbrev Field (α : Type) : Type := String → Option (Node → α → Except SettingsFault α)

/-- Read entries into settings. Entries of other names are passed over; a name that counts must
not come twice. -/
def readEntries {α : Type} (d : Document) (field : Field α) (seen : List String) (settings : α) :
    List (Node × Node) → Except SettingsFault α
  | [] => .ok settings
  | (key, value) :: rest => do
    let name ← text d key
    match field name with
    | none => readEntries d field seen settings rest
    | some put =>
      if seen.contains name then throw (.repeated name)
      let settings ← put value settings
      readEntries d field (name :: seen) settings rest

def advisoryField (d : Document) : Field AdvisorySettings
  | "enabled" => some fun n s => do return { s with enabled := ← boolean d n }
  | "model" => some fun n s => do return { s with model := ← text d n }
  | "api-url-env" => some fun n s => do return { s with urlVariable := ← text d n }
  | "api-key-env" => some fun n s => do return { s with keyVariable := ← text d n }
  | "timeout-secs" => some fun n s => do return { s with timeoutSeconds := ← number d n }
  | _ => none

def advisory (d : Document) (n : Node) : Except SettingsFault AdvisorySettings := do
  readEntries d (advisoryField d) [] {} (← entries d n)

def configField (d : Document) : Field Config
  | "base-package" => some fun n c => do return { c with basePackage := ← text d n }
  | "source-dir" => some fun n c => do return { c with sourceDir := ← text d n }
  | "test-dir" => some fun n c => do return { c with testDir := ← text d n }
  | "report-dir" => some fun n c => do return { c with reportDir := ← text d n }
  | "advisory" => some fun n c => do return { c with advisory := ← advisory d n }
  | _ => none

end Settings

/-! ## Texts and files -/

inductive ConfigError where
  /-- A file or a directory cannot be read. -/
  | unreadable (fault : TextFault)
  /-- A text holds no settings. -/
  | invalid (fault : SettingsFault)
  | notDirectory (root : String)
  /-- The file that was asked for cannot be used. -/
  | inFile (path : String) (cause : ConfigError)
deriving Inhabited

namespace ConfigError

def message : ConfigError → String
  | .unreadable fault => "I/O error: " ++ fault.message
  | .invalid fault => "configuration error: " ++ fault.message
  | .notDirectory root => "configuration error: project root is not a directory: " ++ root
  | .inFile path cause => "configuration error: " ++ path ++ ": " ++ cause.message

end ConfigError

namespace Config

/-- The settings in a text. A blank text leaves all at their defaults. -/
def parse (text : String) : Except SettingsFault Config :=
  if Text.trim text = "" then .ok {}
  else
    match Yaml.Document.ofText text with
    | .error fault => .error (.yaml fault)
    | .ok none => .ok {}
    | .ok (some d) => do
      Settings.readEntries d (Settings.configField d) [] {} (← Settings.entries d d.root)

def load (fs : FileSystem) (path : String) : Except ConfigError Config :=
  match fs.readText path with
  | .error fault => .error (.unreadable fault)
  | .ok text => (parse text).mapError .invalid

def fileName : String := "ripple.yaml"

/-- The settings of a project: the defaults, if its file is missing or cannot be used. -/
def loadOrDefault (fs : FileSystem) (root : String) : Config :=
  match load fs (Path.join root fileName) with
  | .ok config => config
  | .error _ => {}

/-- The settings for a project, from the file that is asked for or from the project's own. -/
def forProject (fs : FileSystem) (root : String) (path? : Option String) :
    Except ConfigError Config :=
  match fs.follow root with
  | .error fault => .error (.unreadable (.path fault))
  | .ok ⟨.file _, _⟩ => .error (.notDirectory root)
  | .ok ⟨.directory _, _⟩ =>
    match path? with
    | some path => (load fs path).mapError (.inFile path)
    | none => .ok (loadOrDefault fs root)

end Config

end ChangeImpact
