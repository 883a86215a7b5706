import SheetLint.Verdict

/-!
# Runs

Files are checked by workers that share a flag. A file that fails raises the flag, and a file whose
worker finds it raised is skipped. Which files are skipped is a matter of the order in which the
workers come to them; `Schedule` stands for all the orders there can be.
-/

namespace SheetLint

/-- What a run has come to. -/
structure RunOutcome where
  verdict : Verdict
  diagnostics : List Diagnostic
  filesChecked : Nat

namespace Run

/-- How far the work on a file is. -/
inductive Slot where
  | waiting
  | busy
  | skipped
  | done (result : CheckResult)

/-- The slot of a file when all work is over. -/
def Slot.ofResult : Option CheckResult → Slot
  | none => skipped
  | some result => done result

/-- How far the work on all files is, and whether the flag is raised. -/
structure Progress where
  files : List (Path × Slot)
  raised : Bool

/-- Nothing has been done. -/
def Progress.start (paths : List Path) : Progress :=
  ⟨paths.map fun path => (path, .waiting), false⟩

/-- What a worker can do. It may begin with a file before it can see that the flag is raised, but it
    skips a file only for the flag. -/
inductive Step (check : Path → CheckResult) : Progress → Progress → Prop
  | begin {front back : List (Path × Slot)} {path : Path} {raised : Bool} :
      Step check ⟨front ++ (path, .waiting) :: back, raised⟩
        ⟨front ++ (path, .busy) :: back, raised⟩
  | skip {front back : List (Path × Slot)} {path : Path} :
      Step check ⟨front ++ (path, .waiting) :: back, true⟩
        ⟨front ++ (path, .skipped) :: back, true⟩
  | finish {front back : List (Path × Slot)} {path : Path} {raised : Bool} :
      Step check ⟨front ++ (path, .busy) :: back, raised⟩
        ⟨front ++ (path, .done (check path)) :: back, raised || (check path).isFailed⟩

/-- What workers can do one after the other. -/
inductive Steps (check : Path → CheckResult) : Progress → Progress → Prop
  | refl {p : Progress} : Steps check p p
  | step {p q r : Progress} (first : Step check p q) (rest : Steps check q r) : Steps check p r

/-- The workers can leave behind these results, and nothing for the files without one. -/
def Possible (check : Path → CheckResult) (paths : List Path)
    (slots : List (Option CheckResult)) : Prop :=
  ∃ last, Steps check (.start paths) last ∧ last.files.map (·.2) = slots.map Slot.ofResult

/-- What comes of each file if one worker takes the files in their order. -/
def slots (check : Path → CheckResult) : Bool → List Path → List (Option CheckResult)
  | _, [] => []
  | true, _ :: paths => none :: slots check true paths
  | false, path :: paths =>
    let result := check path
    some result :: slots check result.isFailed paths

/-- A worker alone can go on like that from any file. -/
theorem steps_slots (check : Path → CheckResult) (front : List (Path × Slot)) (raised : Bool)
    (paths : List Path) :
    ∃ last, Steps check ⟨front ++ paths.map (fun path => (path, .waiting)), raised⟩ last ∧
      last.files.map (·.2) =
        front.map (·.2) ++ (slots check raised paths).map Slot.ofResult := by
  induction paths generalizing front raised with
  | nil => exact ⟨_, .refl, by simp [slots]⟩
  | cons path paths ih =>
    cases raised with
    | true =>
      obtain ⟨last, steps, slots⟩ := ih (front ++ [(path, .skipped)]) true
      rw [List.append_assoc, List.singleton_append] at steps
      exact ⟨last, .step .skip steps, by simp [slots, Run.slots, Slot.ofResult]⟩
    | false =>
      obtain ⟨last, steps, slots⟩ := ih (front ++ [(path, .done (check path))])
        (check path).isFailed
      rw [List.append_assoc, List.singleton_append] at steps
      exact ⟨last, .step .begin (.step .finish steps), by simp [slots, Run.slots, Slot.ofResult]⟩

end Run

/-- An order of the workers: what they leave behind, for every check and all files. -/
structure Schedule where
  slots : (Path → CheckResult) → List Path → List (Option CheckResult)
  possible : ∀ check paths, Run.Possible check paths (slots check paths)

namespace Schedule

/-- One worker takes the files in their order. -/
def inOrder : Schedule where
  slots check := Run.slots check false
  possible check paths := by
    obtain ⟨last, steps, slots⟩ := Run.steps_slots check [] false paths
    exact ⟨last, steps, slots⟩

/-- The results of the files that are not skipped. -/
def results (s : Schedule) (check : Path → CheckResult) (paths : List Path) : List CheckResult :=
  (s.slots check paths).filterMap id

end Schedule

/-- Checks files and decides on the whole. Without files nothing is looked at. -/
def runUnder (schedule : Schedule) (active : ActiveRules) (parser : Parser) (fs : FileSystem)
    (paths : List Path) (budget : Budget) : RunOutcome :=
  if paths.isEmpty then ⟨.noInput, [], 0⟩
  else
    let results := schedule.results (checkFile active parser fs) paths
    let (verdict, diagnostics) := Verdict.decide results budget
    ⟨verdict, diagnostics, results.length⟩

/-- Checks files one after the other and decides on the whole. -/
def run (active : ActiveRules) (parser : Parser) (fs : FileSystem) (paths : List Path)
    (budget : Budget) : RunOutcome :=
  runUnder .inOrder active parser fs paths budget

end SheetLint
