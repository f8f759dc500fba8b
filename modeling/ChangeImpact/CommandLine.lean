import ChangeImpact.Advisory.Chat
import ChangeImpact.Project.Changes
import ChangeImpact.Project.Summary

/-!
# The command line

What the arguments of the program mean, and what the program does about them.

## Main definitions

* `Options`, `Options.ofArguments`: the arguments and how they are read.
* `Surroundings`: all that the program finds around it.
* `Options.execute`, `respond`: what it does.
-/

namespace ChangeImpact

namespace CommandLine

structure Options where
  root : String
  base : String := "HEAD~1"
  head : String := "HEAD"
  /-- The changed classes, if they are listed. -/
  changed? : Option (List String) := none
  config? : Option String := none
  noAdvisory : Bool := false
  noReport : Bool := false
  /-- How often more messages are asked for. -/
  verbose : Nat := 0
deriving DecidableEq, Inhabited

inductive UsageError where
  | help
  | version
  | unknownArgument
  /-- An option without its value, or an empty path. -/
  | invalidValue
  /-- An option that comes twice. -/
  | argumentConflict
  /-- A value for an option that takes none. -/
  | tooManyValues
  | missingArgument
deriving DecidableEq, Inhabited

def UsageError.exitCode : UsageError → Nat
  | .help | .version => 0
  | _ => 2

/-! ## Reading arguments -/

inductive ValueOption where
  | base
  | head
  | changed
  | config
deriving DecidableEq, Inhabited

inductive Flag where
  | noAdvisory
  | noReport
  | verbose
  | help
  | version
deriving DecidableEq, Inhabited

def longOption? : String → Option (ValueOption ⊕ Flag)
  | "base" => some (.inl .base)
  | "head" => some (.inl .head)
  | "changed" => some (.inl .changed)
  | "config" => some (.inl .config)
  | "no-advisory" => some (.inr .noAdvisory)
  | "no-report" => some (.inr .noReport)
  | "verbose" => some (.inr .verbose)
  | "help" => some (.inr .help)
  | "version" => some (.inr .version)
  | _ => none

def shortFlag? : Char → Option Flag
  | 'v' => some .verbose
  | 'h' => some .help
  | 'V' => some .version
  | _ => none

/-- An argument that waits to be settled. -/
inductive Pending where
  | root (value : String)
  /-- An option that still lacks its value. -/
  | lacking (option : ValueOption)
  | given (option : ValueOption) (value : String)

structure Parsing where
  root? : Option String := none
  base? : Option String := none
  head? : Option String := none
  changed? : Option (List String) := none
  config? : Option String := none
  noAdvisory : Bool := false
  noReport : Bool := false
  verbose : Nat := 0
  pending? : Option Pending := none
  /-- Whether the root has been seen. -/
  rootSeen : Bool := false
  /-- Whether the options have ended. -/
  optionsEnded : Bool := false

namespace Parsing

/-- The most often that more messages can be asked for. -/
def mostVerbose : Nat := 255

def putOnce (old : Option String) (value : String) : Except UsageError (Option String) :=
  if old.isSome then .error .argumentConflict else .ok (some value)

/-- Give an option its value. Changed classes are separated by commas, and add up. -/
def put (p : Parsing) (option : ValueOption) (value : String) : Except UsageError Parsing := do
  match option with
  | .base => return { p with base? := ← putOnce p.base? value }
  | .head => return { p with head? := ← putOnce p.head? value }
  | .changed => return { p with changed? := some (p.changed?.getD [] ++ Text.pieces ',' value) }
  | .config =>
    let config? ← putOnce p.config? value
    if value = "" then throw .invalidValue
    return { p with config? }

def settle (p : Parsing) : Except UsageError Parsing :=
  match p.pending? with
  | none => .ok p
  | some (.root value) =>
    if value = "" then .error .invalidValue
    else .ok { p with root? := some value, pending? := none }
  | some (.lacking _) => .error .invalidValue
  | some (.given option value) => { p with pending? := none }.put option value

def takeFlag (p : Parsing) (flag : Flag) : Except UsageError Parsing := do
  let p ← p.settle
  match flag with
  | .noAdvisory =>
    if p.noAdvisory then throw .argumentConflict else return { p with noAdvisory := true }
  | .noReport => if p.noReport then throw .argumentConflict else return { p with noReport := true }
  | .verbose => return { p with verbose := min (p.verbose + 1) mostVerbose }
  | .help => throw .help
  | .version => throw .version

/-- Take an option that is named in full, perhaps with a value behind an equals sign. -/
def takeLong (p : Parsing) (name : String) (value? : Option String) :
    Except UsageError Parsing := do
  match longOption? name, value? with
  | none, _ => throw .unknownArgument
  | some (.inl option), some value => (← p.settle).put option value
  | some (.inl option), none =>
    let p ← p.settle
    return { p with pending? := some (.lacking option) }
  | some (.inr _), some _ => throw .tooManyValues
  | some (.inr flag), none => p.takeFlag flag

def takeShort (p : Parsing) : List Char → Except UsageError Parsing
  | [] => .ok p
  | c :: rest => do
    match shortFlag? c with
    | some flag => takeShort (← p.takeFlag flag) rest
    | none => throw .unknownArgument

def takePlain (p : Parsing) (argument : String) : Except UsageError Parsing := do
  if p.rootSeen then throw .unknownArgument
  let p ← p.settle
  return { p with pending? := some (.root argument), rootSeen := true }

/-- Split an argument at its first equals sign. -/
def splitValue (cs : List Char) : String × Option String :=
  let name := cs.takeWhile (· != '=')
  match cs.drop name.length with
  | _ :: value => (String.ofList name, some (String.ofList value))
  | [] => (String.ofList name, none)

def take (p : Parsing) (argument : String) : Except UsageError Parsing :=
  if p.optionsEnded then p.takePlain argument
  else
    match argument.toList with
    | ['-', '-'] => .ok { p with optionsEnded := true }
    | '-' :: '-' :: rest =>
      let (name, value?) := splitValue rest
      p.takeLong name value?
    | '-' :: c :: rest => p.takeShort (c :: rest)
    | _ =>
      match p.pending? with
      | some (.lacking option) => .ok { p with pending? := some (.given option argument) }
      | _ => p.takePlain argument

def finish (p : Parsing) : Except UsageError Options := do
  let p ← p.settle
  match p.root? with
  | none => throw .missingArgument
  | some root =>
    return {
      root
      base := p.base?.getD "HEAD~1"
      head := p.head?.getD "HEAD"
      changed? := p.changed?
      config? := p.config?
      noAdvisory := p.noAdvisory
      noReport := p.noReport
      verbose := p.verbose }

end Parsing

namespace Options

def ofArguments (arguments : List String) : Except UsageError Options := do
  (← arguments.foldlM Parsing.take {}).finish

def logFilter (o : Options) : String :=
  if o.verbose = 0 then "ripple=info,ripple_graph=warn"
  else if o.verbose = 1 then "ripple=debug,ripple_graph=debug"
  else "ripple=trace,ripple_graph=trace"

def listedChanges? (o : Options) : Option NameSet := o.changed?.map Changes.ofNames

end Options

/-! ## Acting on them -/

/-- All that the program finds around it. -/
structure Surroundings where
  fs : FileSystem
  /-- The value of an environment variable. -/
  environment : String → Option String
  /-- The comparison of two revisions in a directory. -/
  compare : (directory base head : String) → Option Changes.Comparison
  /-- The advisor behind a chat service. -/
  connect : Advisory.ChatClient → Advisory.Advisor

structure ExecutionError where
  root : String
  cause : ConfigError

def ExecutionError.message (e : ExecutionError) : String :=
  "cannot analyze " ++ e.root ++ ": " ++ e.cause.message

namespace Options

def advisor (o : Options) (around : Surroundings) (settings : AdvisorySettings) :
    Advisory.Advisor :=
  if o.noAdvisory then Advisory.disabled "disabled by --no-advisory"
  else
    match Advisory.ChatClient.ofSettings around.environment settings with
    | .ok client => around.connect client
    | .error failure => Advisory.disabled failure.message

/-- The changed classes, as listed or as a comparison of revisions finds them. -/
def changes (o : Options) (around : Surroundings) : NameSet :=
  match o.listedChanges? with
  | some names => names
  | none => Changes.ofComparison (around.compare o.root o.base o.head)

def execute (o : Options) (around : Surroundings) : Except ExecutionError Outcome :=
  match Project.inDirectory around.fs o.root o.config? with
  | .error cause => .error ⟨o.root, cause⟩
  | .ok project =>
    .ok (project.run around.fs (o.changes around) (o.advisor around project.config.advisory)
      (!o.noReport))

end Options

def versionText : String := "ripple 0.1.0\n"

def helpText : String := "\n".intercalate
  ["Ripple - change-impact test selection for Java projects",
   "",
   "Usage: ripple [OPTIONS] <PROJECT_ROOT>",
   "",
   "Arguments:",
   "  <PROJECT_ROOT>  Root of the project to analyze",
   "",
   "Options:",
   "      --base <BASE>        Base revision of the diff [default: HEAD~1]",
   "      --head <HEAD>        Head revision of the diff [default: HEAD]",
   "      --changed <CHANGED>  Changed class names, bypassing git (comma-separated)",
   "      --config <CONFIG>    Configuration file (defaults to ripple.yaml in the project root)",
   "      --no-advisory        Skip the architecture advisory call",
   "      --no-report          Do not write the JSON report",
   "  -v, --verbose...         Increase log verbosity (-v debug, -vv trace)",
   "  -h, --help               Print help",
   "  -V, --version            Print version",
   ""]

inductive Response where
  /-- The arguments cannot be used, or ask for nothing but help. -/
  | usage (error : UsageError)
  | failed (error : ExecutionError)
  | done (outcome : Outcome)

def respond (around : Surroundings) (arguments : List String) : Response :=
  match Options.ofArguments arguments with
  | .error error => .usage error
  | .ok options =>
    match options.execute around with
    | .error error => .failed error
    | .ok outcome => .done outcome

/-- What is printed for arguments that are not acted on, where it is fixed. -/
def UsageError.output : UsageError → String
  | .help => helpText
  | .version => versionText
  | .unknownArgument => "error: unexpected argument found\n"
  | .invalidValue => "error: a value is required but none was supplied\n"
  | .argumentConflict => "error: an argument cannot be used multiple times\n"
  | .tooManyValues => "error: unexpected value found\n"
  | .missingArgument => "error: the project root was not provided\n"

end CommandLine

end ChangeImpact
