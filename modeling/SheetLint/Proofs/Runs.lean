import SheetLint.Proofs.Schedules

/-!
# Runs

A run may skip files once one has failed. Under every schedule it fails exactly if the check of all
files fails, and otherwise it comes to what that check comes to (`runUnder_agrees`). A run that
takes the files in order even tells of the same failure (`run_agrees`).
-/

namespace SheetLint

section File

variable {active : ActiveRules} {parser : Parser} {fs : FileSystem} {path : Path}

/-- A file has a tree, and no rule fails on it. -/
def Clean (active : ActiveRules) (parser : Parser) (fs : FileSystem) (path : Path)
    (ds : List Diagnostic) : Prop :=
  ∃ root, parser.parseFile fs path = .ok root ∧ traverse active root = .ok ds

/-- A file has no tree, or a rule fails on its tree. -/
inductive Faulty (active : ActiveRules) (parser : Parser) (fs : FileSystem) (path : Path) :
    Fault → Prop where
  | source {e : SourceError} :
      parser.parseFile fs path = .error e → Faulty active parser fs path (.source e)
  | rule {root : Node} {e : RuleError} :
      parser.parseFile fs path = .ok root → traverse active root = .error e →
      Faulty active parser fs path (.rule e)

@[simp]
theorem file_checkFile (active : ActiveRules) (parser : Parser) (fs : FileSystem) (path : Path) :
    (checkFile active parser fs path).file = path := by
  unfold checkFile checkTree
  repeat' split
  all_goals rfl

theorem checkFile_of_clean {ds : List Diagnostic} (h : Clean active parser fs path ds) :
    checkFile active parser fs path = ⟨path, .ok (ds.map (·.inFile path))⟩ := by
  obtain ⟨root, read, checked⟩ := h
  simp only [checkFile, read, checkTree, checked]

theorem checkFile_of_faulty {fault : Fault} (h : Faulty active parser fs path fault) :
    checkFile active parser fs path = ⟨path, .error fault⟩ := by
  cases h with
  | source read => simp only [checkFile, read]
  | rule read failed => simp only [checkFile, read, checkTree, failed]

theorem isFailed_of_clean (h : ∃ ds, Clean active parser fs path ds) :
    (checkFile active parser fs path).isFailed = false := by
  obtain ⟨ds, clean⟩ := h
  rw [checkFile_of_clean clean]
  rfl

theorem clean_or_faulty (active : ActiveRules) (parser : Parser) (fs : FileSystem)
    (path : Path) :
    (∃ ds, Clean active parser fs path ds) ∨ ∃ fault, Faulty active parser fs path fault := by
  cases read : parser.parseFile fs path with
  | error e => exact .inr ⟨_, .source read⟩
  | ok root =>
    cases checked : traverse active root with
    | ok ds => exact .inl ⟨ds, root, read, checked⟩
    | error e => exact .inr ⟨_, .rule read checked⟩

/-- All files are clean, or there is a first that is not. -/
theorem clean_or_first_faulty (active : ActiveRules) (parser : Parser) (fs : FileSystem)
    (paths : List Path) :
    (∃ parts, List.Forall₂ (Clean active parser fs) paths parts) ∨
      ∃ before path after fault, paths = before ++ path :: after ∧
        (∀ p ∈ before, ∃ ds, Clean active parser fs p ds) ∧
        Faulty active parser fs path fault := by
  induction paths with
  | nil => exact .inl ⟨[], .nil⟩
  | cons path paths ih =>
    rcases clean_or_faulty active parser fs path with ⟨ds, here⟩ | ⟨fault, here⟩
    · rcases ih with ⟨parts, behind⟩ | ⟨before, p, after, fault, rfl, clean, faulty⟩
      · exact .inl ⟨ds :: parts, .cons here behind⟩
      · refine .inr ⟨path :: before, p, after, fault, rfl, ?_, faulty⟩
        exact List.forall_mem_cons.mpr ⟨⟨ds, here⟩, clean⟩
    · exact .inr ⟨[], path, paths, fault, rfl, nofun, here⟩

end File

namespace Schedule

variable {check : Path → CheckResult} {path : Path} {paths : List Path}

/-- Behind a raised flag every file is skipped. -/
theorem slots_raised (check : Path → CheckResult) (paths : List Path) :
    Run.slots check true paths = paths.map fun _ => none := by
  induction paths with
  | nil => rfl
  | cons path paths ih => rw [Run.slots, ih, List.map_cons]

theorem inOrder_results_cons_of_ok (h : (check path).isFailed = false) :
    inOrder.results check (path :: paths) = check path :: inOrder.results check paths := by
  simp [results, inOrder, Run.slots, h]

theorem inOrder_results_cons_of_failed (h : (check path).isFailed = true) :
    inOrder.results check (path :: paths) = [check path] := by
  simp [results, inOrder, Run.slots, h, slots_raised]

/-- Files that do not fail leave the flag as it is. -/
theorem inOrder_results_append {before : List Path} (h : ∀ p ∈ before, (check p).isFailed = false)
    (paths : List Path) :
    inOrder.results check (before ++ paths) = before.map check ++ inOrder.results check paths := by
  induction before with
  | nil => rfl
  | cons p before ih =>
    obtain ⟨here, behind⟩ := List.forall_mem_cons.mp h
    rw [List.cons_append, inOrder_results_cons_of_ok here, ih behind, List.map_cons,
      List.cons_append]

/-- The files that are not skipped. -/
def checked (s : Schedule) (check : Path → CheckResult) (paths : List Path) : List Path :=
  (s.results check paths).map (·.file)

/-- The results under a schedule are those of the files that are not skipped. -/
theorem map_checked (s : Schedule) (active : ActiveRules) (parser : Parser) (fs : FileSystem)
    (paths : List Path) :
    (s.checked (checkFile active parser fs) paths).map (checkFile active parser fs) =
      s.results (checkFile active parser fs) paths := by
  rw [checked, List.map_map]
  refine (List.map_congr_left ?_).trans (List.map_id _)
  intro r member
  obtain ⟨path, -, rfl⟩ := List.mem_map.mp ((s.thins _ paths).part.subset member)
  simp

theorem checked_sublist (s : Schedule) (active : ActiveRules) (parser : Parser) (fs : FileSystem)
    (paths : List Path) : (s.checked (checkFile active parser fs) paths).Sublist paths := by
  have part := (s.thins (checkFile active parser fs) paths).part.map (·.file)
  simpa [checked, Function.comp_def] using part

/-- If no file fails of those that are not skipped, nothing is skipped. -/
theorem checked_of_ok {s : Schedule} {active : ActiveRules} {parser : Parser} {fs : FileSystem}
    (ok : ∀ p ∈ s.checked (checkFile active parser fs) paths,
      (checkFile active parser fs p).isFailed = false) :
    s.checked (checkFile active parser fs) paths = paths := by
  have all : s.results (checkFile active parser fs) paths =
      paths.map (checkFile active parser fs) := by
    by_contra less
    obtain ⟨r, member, failed⟩ := (s.thins _ paths).failed less
    rw [← s.map_checked] at member
    obtain ⟨path, listed, rfl⟩ := List.mem_map.mp member
    rw [ok path listed] at failed
    cases failed
  rw [checked, all]
  simp [Function.comp_def]

end Schedule

section Run

variable {active : ActiveRules} {parser : Parser} {fs : FileSystem} {paths : List Path}

/-- A run decides by the results that its schedule leaves. -/
theorem runUnder_of_results {schedule : Schedule} {results : List CheckResult} (budget : Budget)
    (h : schedule.results (checkFile active parser fs) paths = results) :
    runUnder schedule active parser fs paths budget =
      ⟨(Verdict.decide results budget).1, (Verdict.decide results budget).2, results.length⟩ := by
  subst h
  cases paths with
  | nil =>
    have none : schedule.results (checkFile active parser fs) [] = [] :=
      List.sublist_nil.mp (schedule.thins _ []).part
    rw [none]
    rfl
  | cons path paths => rfl

/-- Clean files are reported one behind the other, each finding under the path of its file. -/
theorem diagnostics_of_clean {parts : List (List Diagnostic)}
    (h : List.Forall₂ (Clean active parser fs) paths parts) :
    (∀ p ∈ paths, (checkFile active parser fs p).isFailed = false) ∧
      (paths.map (checkFile active parser fs)).flatMap (·.diagnostics) =
        (List.zipWith (fun path ds => ds.map fun d => { d with file := some path })
          paths parts).flatten := by
  induction h with
  | nil => simp
  | cons here _ ih =>
    obtain ⟨ok, reported⟩ := ih
    refine ⟨List.forall_mem_cons.mpr ⟨isFailed_of_clean ⟨_, here⟩, ok⟩, ?_⟩
    rw [List.map_cons, List.flatMap_cons, reported, checkFile_of_clean here]
    rfl

/-- Clean files are all checked. -/
theorem runUnder_of_clean {parts : List (List Diagnostic)} (schedule : Schedule) (budget : Budget)
    (h : List.Forall₂ (Clean active parser fs) paths parts) :
    runUnder schedule active parser fs paths budget =
      ⟨(Verdict.decide (paths.map (checkFile active parser fs)) budget).1,
        (Verdict.decide (paths.map (checkFile active parser fs)) budget).2, paths.length⟩ := by
  have ok : ∀ r ∈ paths.map (checkFile active parser fs), r.isFailed = false :=
    List.forall_mem_map.mpr (diagnostics_of_clean h).1
  rw [runUnder_of_results budget ((schedule.thins _ paths).eq_of_ok ok), List.length_map]

section FirstFault

variable {before : List Path} {path : Path} {fault : Fault}
  (clean : ∀ p ∈ before, ∃ ds, Clean active parser fs p ds)
  (faulty : Faulty active parser fs path fault)

include clean faulty

/-- The first faulty file decides over all results that begin with those up to it. -/
theorem decide_of_faulty (after : List CheckResult) (budget : Budget) :
    Verdict.decide (before.map (checkFile active parser fs) ++
      checkFile active parser fs path :: after) budget = (Verdict.ofFault path fault, []) := by
  have ok : ∀ r ∈ before.map (checkFile active parser fs), r.isFailed = false :=
    List.forall_mem_map.mpr fun p hp => isFailed_of_clean (clean p hp)
  have fails := checkFile_of_faulty faulty
  have failed : (checkFile active parser fs path).outcome = .error fault := by rw [fails]
  rw [Verdict.decide_of_failed ok failed, fails]

/-- The first faulty file that is not skipped decides. -/
theorem runUnder_of_faulty {schedule : Schedule} {after : List Path} (budget : Budget)
    (looked : schedule.checked (checkFile active parser fs) paths = before ++ path :: after) :
    runUnder schedule active parser fs paths budget =
      ⟨Verdict.ofFault path fault, [], (before ++ path :: after).length⟩ := by
  have results := schedule.map_checked active parser fs paths
  rw [looked, List.map_append, List.map_cons] at results
  rw [runUnder_of_results budget results.symm, decide_of_faulty clean faulty]
  simp

/-- In order, nothing is skipped in front of the first faulty file. -/
theorem inOrder_checked_of_faulty (after : List Path) :
    Schedule.inOrder.checked (checkFile active parser fs) (before ++ path :: after) =
      before ++ [path] := by
  have ok : ∀ p ∈ before, (checkFile active parser fs p).isFailed = false :=
    fun p hp => isFailed_of_clean (clean p hp)
  have failed : (checkFile active parser fs path).isFailed = true := by
    rw [checkFile_of_faulty faulty]
    rfl
  rw [Schedule.checked, Schedule.inOrder_results_append ok,
    Schedule.inOrder_results_cons_of_failed failed]
  simp [Function.comp_def]

theorem run_of_faulty (after : List Path) (budget : Budget) :
    run active parser fs (before ++ path :: after) budget =
      ⟨Verdict.ofFault path fault, [], before.length + 1⟩ := by
  rw [run, runUnder_of_faulty clean faulty budget (inOrder_checked_of_faulty clean faulty after)]
  simp

end FirstFault

/-- Under every schedule a run fails exactly if the check of all files fails. Then nothing is
    reported, and the verdict tells of a file that is faulty. Otherwise the run decides and reports
    as if all files were checked, and they were. -/
theorem runUnder_agrees (schedule : Schedule) (active : ActiveRules) (parser : Parser)
    (fs : FileSystem) (paths : List Path) (budget : Budget) :
    let outcome := runUnder schedule active parser fs paths budget
    let all := Verdict.decide (paths.map (checkFile active parser fs)) budget
    (outcome.verdict.isFault = all.1.isFault) ∧
    (all.1.isFault = false →
      (outcome.verdict, outcome.diagnostics) = all ∧ outcome.filesChecked = paths.length) ∧
    (all.1.isFault = true → outcome.diagnostics = [] ∧ ∃ path ∈ paths, ∃ fault,
      Faulty active parser fs path fault ∧ outcome.verdict = Verdict.ofFault path fault) := by
  intro outcome all
  rcases clean_or_first_faulty active parser fs
      (schedule.checked (checkFile active parser fs) paths) with
    ⟨parts, clean⟩ | ⟨before, path, after, fault, looked, clean, faulty⟩
  · rw [Schedule.checked_of_ok (diagnostics_of_clean clean).1] at clean
    have ok : ∀ r ∈ paths.map (checkFile active parser fs), r.isFailed = false :=
      List.forall_mem_map.mpr (diagnostics_of_clean clean).1
    have sound : all.1.isFault = false := by
      rw [← Bool.not_eq_true, Verdict.isFault_decide_iff]
      simpa using ok
    have made : outcome = ⟨all.1, all.2, paths.length⟩ := runUnder_of_clean schedule budget clean
    simp [made, sound]
  · have listed : path ∈ paths := by
      apply (schedule.checked_sublist active parser fs paths).subset
      simp [looked]
    have failed : all.1.isFault = true := by
      rw [Verdict.isFault_decide_iff]
      exact ⟨_, List.mem_map_of_mem listed, by rw [checkFile_of_faulty faulty]; rfl⟩
    have made : outcome = ⟨Verdict.ofFault path fault, [], _⟩ :=
      runUnder_of_faulty clean faulty budget looked
    rw [made, failed]
    exact ⟨Verdict.isFault_ofFault path fault, nofun, fun _ =>
      ⟨rfl, path, listed, fault, faulty, rfl⟩⟩

/-- A run, which skips the files behind the first that fails, decides and reports as if all files
    were checked. If no file fails, all are counted, and the report holds what the rules say about
    their trees, file by file. Else the files up to the first that fails are counted, nothing is
    reported, and the fault of that file is the verdict. -/
theorem run_agrees (active : ActiveRules) (parser : Parser) (fs : FileSystem)
    (paths : List Path) (budget : Budget) :
    let outcome := run active parser fs paths budget
    (outcome.verdict, outcome.diagnostics) =
      Verdict.decide (paths.map (checkFile active parser fs)) budget ∧
    ((∃ parts, List.Forall₂ (Clean active parser fs) paths parts ∧
        outcome.filesChecked = paths.length ∧
        outcome.diagnostics =
          (List.zipWith (fun path ds => ds.map fun d => { d with file := some path })
            paths parts).flatten) ∨
      ∃ before path after fault, paths = before ++ path :: after ∧
        (∀ p ∈ before, ∃ ds, Clean active parser fs p ds) ∧
        Faulty active parser fs path fault ∧
        outcome.filesChecked = before.length + 1 ∧
        outcome.diagnostics = [] ∧
        outcome.verdict =
          match fault with
          | .rule (.invalidSetting ..) => .configFault (some path) fault.message
          | _ => .softwareFault path fault.message) := by
  rcases clean_or_first_faulty active parser fs paths with
    ⟨parts, clean⟩ | ⟨before, path, after, fault, rfl, clean, faulty⟩
  · obtain ⟨ok, reported⟩ := diagnostics_of_clean clean
    have okResults : ∀ r ∈ paths.map (checkFile active parser fs), r.isFailed = false :=
      List.forall_mem_map.mpr ok
    rw [run, runUnder_of_clean _ budget clean]
    refine ⟨rfl, .inl ⟨parts, clean, rfl, ?_⟩⟩
    rw [← reported]
    exact Verdict.diagnostics_decide_of_ok okResults budget
  · rw [run_of_faulty clean faulty]
    refine ⟨?_, .inr ⟨before, path, after, fault, rfl, clean, faulty, rfl, rfl, ?_⟩⟩
    · rw [List.map_append, List.map_cons, decide_of_faulty clean faulty]
    · exact Verdict.ofFault_eq path fault

end Run

end SheetLint
