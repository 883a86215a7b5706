import SheetLint.Run
import SheetLint.Proofs.Verdicts
import Mathlib.Data.List.Forall2

/-!
# Schedules

Workers skip a file only for the flag, and only a file that has failed raises it. So every file has
its own result or is skipped, and if one is skipped, another has failed. Nothing else limits what
workers leave behind (`Run.possible_iff`). The results under a schedule are thus a part of all
results that holds a failure, if it is not all of them (`Schedule.thins`).
-/

namespace SheetLint

namespace Run

variable {check : Path → CheckResult} {paths : List Path} {p q r : Progress}
  {slots : List (Option CheckResult)}

/-- What holds of the work at any time. -/
structure Sound (check : Path → CheckResult) (paths : List Path) (p : Progress) : Prop where
  files : p.files.map (·.1) = paths
  done : ∀ path result, (path, .done result) ∈ p.files → result = check path
  skipped : ∀ path, (path, .skipped) ∈ p.files → p.raised = true
  raised : p.raised = true → ∃ path result, (path, .done result) ∈ p.files ∧ result.isFailed = true

theorem Sound.start (check : Path → CheckResult) (paths : List Path) :
    Sound check paths (.start paths) where
  files := by simp [Progress.start, Function.comp_def]
  done := by simp [Progress.start]
  skipped := by simp [Progress.start]
  raised := by simp [Progress.start]

/-- Every step keeps it. The file that a step is about was not over before, so nothing that is over
    gets lost. -/
theorem Sound.step (sound : Sound check paths p) (h : Step check p q) : Sound check paths q := by
  obtain ⟨files, done, skipped, raised⟩ := sound
  cases h with
  | begin =>
    refine ⟨by simpa using files, ?_, ?_, ?_⟩
    · intro path result member
      exact done path result (by simpa using member)
    · intro path member
      exact skipped path (by simpa using member)
    · simpa using raised
  | skip =>
    refine ⟨by simpa using files, ?_, fun _ _ => rfl, ?_⟩
    · intro path result member
      exact done path result (by simpa using member)
    · simpa using raised
  | @finish front back path flag =>
    refine ⟨by simpa using files, ?_, ?_, ?_⟩
    · intro other result member
      simp only [List.mem_append, List.mem_cons, Prod.mk.injEq, Slot.done.injEq] at member done
      rcases member with before | ⟨rfl, rfl⟩ | after
      · exact done other result (.inl before)
      · rfl
      · exact done other result (.inr (.inr after))
    · intro other member
      simp only [List.mem_append, List.mem_cons, Prod.mk.injEq, reduceCtorEq, and_false,
        false_or] at member skipped
      rw [skipped other member, Bool.true_or]
    · intro now
      rcases Bool.or_eq_true _ _ ▸ now with before | failed
      · obtain ⟨other, result, member, failed⟩ := raised before
        refine ⟨other, result, ?_, failed⟩
        simp only [List.mem_append, List.mem_cons, Prod.mk.injEq, reduceCtorEq, and_false,
          false_or] at member ⊢
        rcases member with before | after
        · exact .inl before
        · exact .inr (.inr after)
      · exact ⟨path, check path, by simp, failed⟩

theorem Sound.steps (sound : Sound check paths p) (h : Steps check p q) : Sound check paths q := by
  induction h with
  | refl => exact sound
  | step first _ ih => exact ih (sound.step first)

/-- What can be left behind: a file has its own result or none, and if one has none, another has
    failed. -/
structure Leaves (check : Path → CheckResult) (paths : List Path)
    (slots : List (Option CheckResult)) : Prop where
  own : List.Forall₂ (fun path slot => slot = none ∨ slot = some (check path)) paths slots
  failed : none ∈ slots → ∃ result, some result ∈ slots ∧ result.isFailed = true

/-- Every possible run leaves the results of the checks, and none is left out unless another has
    failed. -/
theorem leaves_of_possible (h : Possible check paths slots) : Leaves check paths slots := by
  obtain ⟨last, steps, ends⟩ := h
  have sound := (Sound.start check paths).steps steps
  have aligned :
      List.Forall₂ (fun entry slot => entry.2 = Slot.ofResult slot) last.files slots := by
    rwa [← List.forall₂_eq_eq_eq, List.forall₂_map_left_iff, List.forall₂_map_right_iff] at ends
  constructor
  · rw [← sound.files, List.forall₂_map_left_iff]
    have done : ∀ entry ∈ last.files, ∀ result,
        entry.2 = .done result → result = check entry.1 := by
      rintro ⟨path, _⟩ member result rfl
      exact sound.done path result member
    refine ((List.forall₂_and_left _ _).mpr ⟨done, aligned⟩).imp ?_
    rintro ⟨path, _⟩ slot ⟨own, rfl⟩
    cases slot with
    | none => exact .inl rfl
    | some result => exact .inr (congrArg some (own result rfl))
  · intro skipped
    have member : Slot.skipped ∈ last.files.map (·.2) := ends ▸ List.mem_map_of_mem skipped
    obtain ⟨⟨path, _⟩, listed, rfl⟩ := List.mem_map.mp member
    obtain ⟨path, result, listed, failed⟩ := sound.raised (sound.skipped path listed)
    have member : Slot.done result ∈ slots.map Slot.ofResult := ends ▸ List.mem_map_of_mem listed
    obtain ⟨slot, listed, same⟩ := List.mem_map.mp member
    cases slot with
    | none => cases same
    | some other =>
      cases same
      exact ⟨result, listed, failed⟩

theorem Steps.trans (first : Steps check p q) (second : Steps check q r) : Steps check p r := by
  induction first with
  | refl => exact second
  | step here _ ih => exact .step here (ih second)

section Files

variable {files : List (Path × Option CheckResult)}

/-- What can be done with each of some files can be done with all of them, from the first to the
    last. Files for which `raises` holds raise the flag; `low` says that it has to be raised before
    the first of them. -/
theorem steps_sweep (low : Bool) (old new : Option CheckResult → Slot)
    (raises : Option CheckResult → Bool)
    (one : ∀ file ∈ files, ∀ front back raised, (low = true → raised = true) →
      Steps check ⟨front ++ (file.1, old file.2) :: back, raised⟩
        ⟨front ++ (file.1, new file.2) :: back, raised || raises file.2⟩)
    (front : List (Path × Slot)) (raised : Bool) (high : low = true → raised = true) :
    Steps check ⟨front ++ files.map (fun file => (file.1, old file.2)), raised⟩
      ⟨front ++ files.map (fun file => (file.1, new file.2)),
        raised || files.any fun file => raises file.2⟩ := by
  induction files generalizing front raised with
  | nil => simpa using .refl
  | cons file files ih =>
    obtain ⟨here, later⟩ := List.forall_mem_cons.mp one
    have stillHigh : low = true → (raised || raises file.2) = true := by
      intro isLow
      rw [high isLow, Bool.true_or]
    have rest := ih later (front ++ [(file.1, new file.2)]) (raised || raises file.2) stillHigh
    rw [List.append_assoc, List.singleton_append, Bool.or_assoc] at rest
    exact (here front _ raised high).trans (by simpa using rest)

/-- The slot of a file that is begun if it is to have a result. -/
def Slot.begun : Option CheckResult → Slot
  | none => waiting
  | some _ => busy

/-- The slot of a file that is finished if it is to have a result. -/
def Slot.finished : Option CheckResult → Slot
  | none => waiting
  | some result => done result

/-- All checks that will give a result can be begun first. -/
theorem steps_begun (check : Path → CheckResult) (files : List (Path × Option CheckResult)) :
    Steps check ⟨files.map fun file => (file.1, .waiting), false⟩
      ⟨files.map fun file => (file.1, Slot.begun file.2), false⟩ := by
  have swept : Steps check ⟨files.map fun file => (file.1, .waiting), false⟩
      ⟨files.map fun file => (file.1, Slot.begun file.2), files.any fun _ => false⟩ := by
    refine steps_sweep false (fun _ => .waiting) Slot.begun (fun _ => false) ?_ [] false (by simp)
    rintro ⟨path, slot⟩ - front back raised -
    rw [Bool.or_false]
    cases slot with
    | none => exact .refl
    | some result => exact .step .begin .refl
  rwa [List.any_eq_false.mpr (by simp)] at swept

theorem steps_finished
    (own : ∀ path slot, (path, slot) ∈ files → slot = none ∨ slot = some (check path)) :
    Steps check ⟨files.map fun file => (file.1, Slot.begun file.2), false⟩
      ⟨files.map fun file => (file.1, Slot.finished file.2),
        files.any fun file => file.2.any (·.isFailed)⟩ := by
  refine steps_sweep false Slot.begun Slot.finished (·.any (·.isFailed)) ?_ [] false (by simp)
  rintro ⟨path, slot⟩ member front back raised -
  rcases own path slot member with rfl | rfl
  · simpa using .refl
  · exact .step .finish .refl

/-- Once a fault has been found, the files that were not begun can be skipped. -/
theorem steps_skipped (raised : Bool) (high : (∃ file ∈ files, file.2 = none) → raised = true) :
    Steps check ⟨files.map fun file => (file.1, Slot.finished file.2), raised⟩
      ⟨files.map fun file => (file.1, Slot.ofResult file.2), raised⟩ := by
  have swept : Steps check ⟨files.map fun file => (file.1, Slot.finished file.2), raised⟩
      ⟨files.map fun file => (file.1, Slot.ofResult file.2),
        raised || files.any fun _ => false⟩ := by
    refine steps_sweep (files.any (·.2.isNone)) Slot.finished Slot.ofResult (fun _ => false) ?_ []
      raised ?_
    · rintro ⟨path, slot⟩ member front back raised high
      rw [Bool.or_false]
      cases slot with
      | none =>
        rw [high (List.any_eq_true.mpr ⟨_, member, rfl⟩)]
        exact .step .skip .refl
      | some result => exact .refl
    · intro low
      obtain ⟨file, member, isNone⟩ := List.any_eq_true.mp low
      exact high ⟨file, member, Option.isNone_iff_eq_none.mp isNone⟩
  rwa [List.any_eq_false.mpr (by simp), Bool.or_false] at swept

end Files

/-- The files that keep their results are begun and then finished. By then the flag is raised if
    others are to be skipped. -/
theorem possible_of_leaves (h : Leaves check paths slots) : Possible check paths slots := by
  obtain ⟨aligned, failed⟩ := h
  obtain ⟨length, own⟩ := List.forall₂_iff_zip.mp aligned
  have allPaths : (paths.zip slots).map (·.1) = paths := List.map_fst_zip (Nat.le_of_eq length)
  have allSlots : (paths.zip slots).map (·.2) = slots :=
    List.map_snd_zip (Nat.le_of_eq length.symm)
  generalize paths.zip slots = files at own allPaths allSlots
  subst allPaths allSlots
  have raised : (∃ file ∈ files, file.2 = none) →
      (files.any fun file => file.2.any (·.isFailed)) = true := by
    rintro ⟨file, member, isNone⟩
    obtain ⟨result, listed, fails⟩ := failed (isNone ▸ List.mem_map_of_mem member)
    obtain ⟨other, member, same⟩ := List.mem_map.mp listed
    exact List.any_eq_true.mpr ⟨other, member, by rw [same]; exact fails⟩
  have start : Progress.start (files.map (·.1)) =
      ⟨files.map fun file => (file.1, .waiting), false⟩ := by
    rw [Progress.start, List.map_map]
    rfl
  have finished := (steps_begun check files).trans (steps_finished fun _ _ member => own member)
  have all := finished.trans (steps_skipped _ raised)
  rw [← start] at all
  refine ⟨_, all, ?_⟩
  rw [List.map_map, List.map_map]
  rfl

/-- Files may be left without a result, whichever they are, as long as one that fails has its
    result. -/
theorem possible_iff : Possible check paths slots ↔ Leaves check paths slots :=
  ⟨leaves_of_possible, possible_of_leaves⟩

theorem Leaves.reverse (h : Leaves check paths slots) :
    Leaves check paths.reverse slots.reverse where
  own := List.rel_reverse h.own
  failed := by simpa using h.failed

theorem Leaves.sublist (h : Leaves check paths slots) :
    (slots.filterMap id).Sublist (paths.map check) := by
  obtain ⟨own, -⟩ := h
  induction own with
  | nil => exact .slnil
  | cons here _ ih =>
    rcases here with rfl | rfl
    · exact ih.cons _
    · exact ih.cons_cons _

/-- With nothing skipped, all results are there. -/
theorem Leaves.eq_of_not_mem (h : Leaves check paths slots) (all : none ∉ slots) :
    slots.filterMap id = paths.map check := by
  obtain ⟨own, -⟩ := h
  induction own with
  | nil => rfl
  | cons here _ ih =>
    rw [List.mem_cons, not_or] at all
    rcases here with rfl | rfl
    · exact absurd rfl all.1
    · exact congrArg (check _ :: ·) (ih all.2)

end Run

namespace Schedule

/-- The results under a schedule are all results, or a part of them that holds a failure. -/
theorem thins (s : Schedule) (check : Path → CheckResult) (paths : List Path) :
    Verdict.Thins (s.results check paths) (paths.map check) := by
  have leaves := Run.leaves_of_possible (s.possible check paths)
  refine ⟨leaves.sublist, ?_⟩
  intro less
  have skipped : none ∈ s.slots check paths := by
    by_contra all
    exact less (leaves.eq_of_not_mem all)
  obtain ⟨result, listed, failed⟩ := leaves.failed skipped
  exact ⟨result, List.mem_filterMap.mpr ⟨some result, listed, rfl⟩, failed⟩

end Schedule

end SheetLint
