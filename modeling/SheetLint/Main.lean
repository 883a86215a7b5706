import SheetLint.CommandLine.Arguments
import SheetLint.CommandLine.Execute

/-!
# The command

Reads the files that the arguments lead to, runs what they ask for, and writes what comes of it.
-/

namespace SheetLint.CommandLine

/-- What is shown to a user who asks for help, line by line. -/
def helpLines : List String :=
  ["Configurable style linter for LESS and CSS stylesheets",
   "",
   "Usage: stylecheck [OPTIONS] [PATHS]...",
   "",
   "Options:",
   "  -c, --config <FILE>      Configuration file (defaults to ./stylecheck.toml when present)",
   "  -e, --exclude <GLOB>     Glob of files to skip, in addition to excluded_files",
   "  -l, --linter <NAME>      Plugin rule to enable, in addition to linters",
   "  -r, --reporter <FORMAT>  Reporter used to print diagnostics: default, jsonl",
   "      --max-warnings <N>   Warnings tolerated before failing; -1 means unlimited",
   "      --color <CHOICE>     Output coloring: auto, always, never",
   "  -v, --verbose            Log progress to stderr",
   "  -h, --help               Print help",
   "  -V, --version            Print version"]

/-- What is shown in place of a run. -/
def Usage.text : Usage → String
  | .unknownArgument => "error: unexpected argument\n"
  | .invalidValue => "error: a value is missing or is none of the possible values\n"
  | .rejectedValue => "error: the number of warnings must be an integer not below -1\n"
  | .repeatedArgument => "error: an argument cannot be used multiple times\n"
  | .needlessValue => "error: a value stands where none is expected\n"
  | .help => String.join (helpLines.map (· ++ "\n"))
  | .version => "stylecheck 0.1.0\n"

/-- Reads a file, or a directory with all that is below it. Anything else, such as a link, is left
    out. -/
partial def readEntry (entry : IO.FS.DirEntry) : IO (Option (EntryName × FileTree)) := do
  let some name := EntryName.ofBytes? (Utf8.encode entry.fileName) | return none
  match (← entry.path.symlinkMetadata).type with
  | .file => return some (name, .file (← IO.FS.readBinFile entry.path))
  | .dir =>
    let entries ← (← entry.path.readDir).toList.filterMapM readEntry
    return some (name, .directory entries)
  | _ => return none

/-- The files that are looked for in every directory above one that is read. -/
def ignoreFiles : List (List String) :=
  [[".ignore"], [".gitignore"], [".git", "info", "exclude"]]

/-- Reads of some entries what the given names lead to, and on the way there the files that say what
    is ignored. -/
partial def readOnWay (wanted : List (List String)) (entries : List IO.FS.DirEntry) :
    IO (List (EntryName × FileTree)) :=
  entries.filterMapM fun entry => do
    let inside := (wanted ++ ignoreFiles).filterMap fun names =>
      if names.head? = some entry.fileName then some names.tail else none
    if inside.isEmpty then return none
    if inside.contains [] then return ← readEntry entry
    let some name := EntryName.ofBytes? (Utf8.encode entry.fileName) | return none
    match (← entry.path.symlinkMetadata).type with
    | .dir => return some (name, .directory (← readOnWay inside (← entry.path.readDir).toList))
    | _ => return none

/-- The paths at the front of a path. -/
def fronts (path : String) : List String :=
  let pieces := path.splitOn "/"
  (List.range pieces.length).map fun n => "/".intercalate (pieces.take n)

/-- The names that lead from the root to what a path names; none if it names nothing. -/
def namesFromRoot (here path : String) : IO (List String) := do
  let path := if path.startsWith "/" then path else here ++ "/" ++ path
  let place ← try pure (toString (← IO.FS.realPath path)) catch _ => pure ""
  return (place.splitOn "/").filter (· != "")

/-- Reads the parts of the file system that paths lead through from the working directory. Of a
    directory in the middle of a path, nothing is called by an empty name. -/
def readFileSystem (paths : List String) : IO FileSystem := do
  let here := toString (← IO.currentDir)
  let ends ← (here :: paths).mapM (namesFromRoot here)
  let middles ← (paths.flatMap fronts).mapM (namesFromRoot here)
  let wanted := ends ++ middles.map (· ++ [""])
  let entries ← readOnWay wanted (← (← IO.FS.realPath "/").readDir).toList
  return ⟨.directory entries, ((Path.ofString here).entryNames?).getD []⟩

/-- Standard output is a terminal that shows colours. -/
def showsColors : IO Bool := do
  let terminal ← (← IO.getStdout).isTty
  let kind ← IO.getEnv "TERM"
  let plain ← IO.getEnv "NO_COLOR"
  return terminal && kind.any (· != "dumb") && plain.isNone

/-- Runs what the options ask for, and gives the code with which the program ends. -/
def runOptions (options : Options) : IO UInt32 := do
  let stdout ← IO.getStdout
  let stderr ← IO.getStderr
  let paths := (options.config.toList ++ options.paths).filterMap Path.text?
  let fs ← if options.paths.isEmpty then pure ⟨.empty, []⟩ else readFileSystem paths
  let output := execute options (← showsColors) fs
  for notice in output.notices do
    stderr.putStrLn ("WARN " ++ notice.message)
  stdout.putStr output.stdout
  stderr.putStr output.stderr
  return output.exitCode.toUInt32

end SheetLint.CommandLine

def main (args : List String) : IO UInt32 := do
  match SheetLint.CommandLine.parse args with
  | .ok options => SheetLint.CommandLine.runOptions options
  | .error usage =>
    if usage.exitCode = 0 then (← IO.getStdout).putStr usage.text
    else (← IO.getStderr).putStr usage.text
    return usage.exitCode.toUInt32
