import SheetLint.CommandLine.Options
import SheetLint.Config.Decode
import SheetLint.Discovery
import SheetLint.Report
import SheetLint.Resolution
import SheetLint.Run
import SheetLint.Stylesheet.Reader

/-!
# Execution

A run as it is asked for on the command line: read the configuration, choose the rules, find the
files, check them and report.
-/

namespace SheetLint.CommandLine

/-- The configuration file that is read if no other is named. -/
def defaultConfigFile : Path := "stylecheck.toml"

/-- Why a run does not begin. -/
inductive SetupError where
  | config (error : ConfigError)
  | discovery (error : DiscoveryError)
  deriving DecidableEq, Repr

namespace SetupError

/-- The reason in words. -/
def message : SetupError → String
  | config error => error.message
  | discovery error => error.message

/-- The verdict on a run that does not begin: a path that names nothing is no input, and all else
    lies in the configuration. -/
def verdict : SetupError → Verdict
  | discovery (.notFound _) => .noInput
  | error => .configFault none error.message

end SetupError

/-- The configuration of a run, with what the command line adds to it. -/
def loadConfig (options : Options) (fs : FileSystem) : Except ConfigError Config := do
  let c ←
    match options.config with
    | some path => Config.load fs path
    | none =>
      if fs.isFileAt defaultConfigFile then Config.load fs defaultConfigFile
      else pure .default
  c.withOverrides options.exclude options.linters

/-- The files that a run looks at. -/
def discover (options : Options) (c : Config) (fs : FileSystem) :
    Except DiscoveryError (List Path) := do
  let finder ← Finder.make c.fileExtensions c.excludedFiles
  finder.filesToCheck fs options.paths

/-- What a run leaves behind. There is no verdict if the report could not be written. -/
structure Output where
  verdict : Option Verdict
  stdout : String
  stderr : String
  notices : List Notice

/-- The code with which the program ends. -/
def Output.exitCode (o : Output) : Nat :=
  match o.verdict with
  | some verdict => verdict.exitCode
  | none => 70

/-- A run without input. -/
def noFiles (notices : List Notice) : Output :=
  ⟨some .noInput, "", "No files to check.\n", notices⟩

/-- What is said about a fault. -/
def faultText : Verdict → String
  | .softwareFault file detail =>
    "An unexpected error occurred while checking " ++ file.display ++ ":\n  " ++ detail ++ "\n"
  | .configFault (some file) detail =>
    "Invalid configuration (while checking " ++ file.display ++ "):\n  " ++ detail ++ "\n"
  | .configFault none detail => "Invalid configuration:\n  " ++ detail ++ "\n"
  | _ => ""

/-- A run that does not begin. -/
def notBegun (error : SetupError) (notices : List Notice) : Output :=
  let text :=
    if error.verdict = .noInput then "Error: " ++ error.message ++ "\n"
    else faultText error.verdict
  ⟨some error.verdict, "", text, notices⟩

/-- The report of a run. Colours are for people only; by default they are for terminals only. -/
def report (options : Options) (terminal : Bool) (diagnostics : List Diagnostic) :
    Report.Written :=
  match options.format with
  | .jsonl => Report.jsonLines diagnostics
  | .human =>
    let colored :=
      match options.color with
      | .always => true
      | .never => false
      | .auto => terminal
    ⟨Report.human colored diagnostics, true⟩

/-- Reports on a run, or says what fault was met. -/
def conclude (options : Options) (terminal : Bool) (notices : List Notice) (outcome : RunOutcome) :
    Output :=
  if outcome.verdict.isFault then
    ⟨some outcome.verdict, "", faultText outcome.verdict, notices⟩
  else
    let written := report options terminal outcome.diagnostics
    if written.complete then ⟨some outcome.verdict, written.text, "", notices⟩
    else ⟨none, written.text, "Error: " ++ Report.failureMessage ++ "\n", notices⟩

/-- Does what the options ask for, with the files checked under a schedule. Standard output may be
    a terminal that shows colours. -/
def executeUnder (schedule : Schedule) (options : Options) (terminal : Bool) (fs : FileSystem) :
    Output :=
  if options.paths.isEmpty then noFiles []
  else
    match loadConfig options fs with
    | .error e => notBegun (.config e) []
    | .ok c =>
      match resolve .builtin c with
      | .error e => notBegun (.config e) []
      | .ok (active, notices) =>
        match discover options c fs with
        | .error e => notBegun (.discovery e) notices
        | .ok [] => noFiles notices
        | .ok paths =>
          conclude options terminal notices
            (runUnder schedule active Stylesheet.parse fs paths options.budget)

/-- Does what the options ask for, with the files checked one after the other. -/
def execute (options : Options) (terminal : Bool) (fs : FileSystem) : Output :=
  executeUnder .inOrder options terminal fs

end SheetLint.CommandLine
