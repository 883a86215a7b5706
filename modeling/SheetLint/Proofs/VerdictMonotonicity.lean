import SheetLint.Proofs.Verdicts
import Mathlib.Data.List.Perm.Subperm

/-!
# Monotonicity of verdicts

When no file fails, the verdict on a run is decided by the findings alone: by whether there is an
error, and by the number of warnings. So neither the order of the files nor that of their findings
matters, more findings never make the exit code smaller, and a larger budget never makes it larger
(`Verdict.decide_weighs`).
-/

namespace SheetLint

namespace Budget

/-- A bound is below every larger bound, and all budgets are below the one without a bound. -/
protected def le : Budget → Budget → Prop
  | _, unlimited => True
  | unlimited, max _ => False
  | max m, max n => m ≤ n

instance : LE Budget := ⟨Budget.le⟩

/-- The larger of two budgets is exceeded by fewer numbers of warnings. -/
theorem le_iff {b b' : Budget} :
    b ≤ b' ↔ ∀ warnings, b'.isExceededBy warnings = true → b.isExceededBy warnings = true := by
  cases b' with
  | unlimited =>
    constructor
    · intro _ warnings exceeded
      cases exceeded
    · intro _
      trivial
  | max n =>
    cases b with
    | unlimited =>
      constructor
      · exact False.elim
      · intro h
        cases h (n + 1) (by simp [isExceededBy])
    | max m =>
      show m ≤ n ↔ _
      simp only [isExceededBy, decide_eq_true_eq]
      constructor
      · intro h warnings exceeded
        exact Nat.lt_of_le_of_lt h exceeded
      · intro h
        by_contra larger
        exact Nat.lt_irrefl m (h m (Nat.lt_of_not_le larger))

/-- A budget that a number of warnings exceeds is exceeded by every larger number. -/
theorem isExceededBy_of_le {b : Budget} {m n : Nat} (h : m ≤ n)
    (exceeded : b.isExceededBy m = true) : b.isExceededBy n = true := by
  cases b with
  | unlimited => cases exceeded
  | max count =>
    simp only [isExceededBy, decide_eq_true_eq] at exceeded ⊢
    exact Nat.lt_of_lt_of_le exceeded h

/-- More warnings than a budget allows. -/
theorem isExceededBy_iff {budget : Budget} {n : Nat} :
    budget.isExceededBy n = true ↔ ∃ limit, budget = .max limit ∧ limit < n := by
  cases budget <;> simp [isExceededBy]

end Budget

namespace Verdict

variable {ds ds' : List Diagnostic} {budget budget' : Budget}

/-- That there are no findings at all is not a case of its own. -/
theorem classify_eq (ds : List Diagnostic) (budget : Budget) :
    classify ds budget =
      if ds.any (·.isError) then error
      else if budget.isExceededBy (ds.countP (·.isWarning)) then warning
      else ok := by
  cases ds with
  | cons d ds => rfl
  | nil => cases budget <;> rfl

theorem classify_perm (h : ds.Perm ds') (budget : Budget) :
    classify ds budget = classify ds' budget := by
  rw [classify_eq, classify_eq, h.any_eq, h.countP_eq]

/-- An error decides, then the number of warnings. -/
theorem classify_cases (ds : List Diagnostic) (budget : Budget) :
    ((∃ d ∈ ds, d.severity = .error) ∧ classify ds budget = error) ∨
    ((∀ d ∈ ds, d.severity ≠ .error) ∧
      budget.isExceededBy (ds.countP (·.severity = .warning)) = true ∧
      classify ds budget = warning) ∨
    ((∀ d ∈ ds, d.severity ≠ .error) ∧
      budget.isExceededBy (ds.countP (·.severity = .warning)) = false ∧
      classify ds budget = ok) := by
  have warnings : ds.countP (·.isWarning) = ds.countP (·.severity = .warning) := rfl
  rw [classify_eq, warnings]
  by_cases errors : ds.any (·.isError) = true
  · left
    rw [if_pos errors]
    exact ⟨by simpa [Diagnostic.isError] using errors, rfl⟩
  · right
    have calm : ∀ d ∈ ds, d.severity ≠ .error := by simpa [Diagnostic.isError] using errors
    rw [if_neg errors]
    cases exceeded : budget.isExceededBy (ds.countP (·.severity = .warning)) with
    | true => exact .inl ⟨calm, rfl, rfl⟩
    | false => exact .inr ⟨calm, rfl, rfl⟩

theorem classify_eq_error_iff : classify ds budget = error ↔ ∃ d ∈ ds, d.severity = .error := by
  rcases classify_cases ds budget with ⟨bad, made⟩ | ⟨calm, -, made⟩ | ⟨calm, -, made⟩
  · exact iff_of_true made bad
  · simpa [made] using calm
  · simpa [made] using calm

theorem classify_eq_warning_iff :
    classify ds budget = warning ↔
      (∀ d ∈ ds, d.severity ≠ .error) ∧
        budget.isExceededBy (ds.countP (·.severity = .warning)) = true := by
  rcases classify_cases ds budget with ⟨⟨d, member, bad⟩, made⟩ | ⟨calm, h, made⟩ | ⟨-, h, made⟩
  · simpa [made] using fun calm => absurd bad (calm d member)
  · exact iff_of_true made ⟨calm, h⟩
  · simp [made, h]

theorem classify_eq_ok_iff :
    classify ds budget = ok ↔
      (∀ d ∈ ds, d.severity ≠ .error) ∧
        budget.isExceededBy (ds.countP (·.severity = .warning)) = false := by
  rcases classify_cases ds budget with ⟨⟨d, member, bad⟩, made⟩ | ⟨-, h, made⟩ | ⟨calm, h, made⟩
  · simpa [made] using fun calm => absurd bad (calm d member)
  · simp [made, h]
  · exact iff_of_true made ⟨calm, h⟩

/-- More findings weigh more, and so do the same ones under a smaller budget. -/
theorem exitCode_classify_mono (more : ds.Subperm ds') (smaller : budget' ≤ budget) :
    (classify ds budget).exitCode ≤ (classify ds' budget').exitCode := by
  rcases classify_cases ds' budget' with ⟨-, made'⟩ | ⟨calm, -, made'⟩ | ⟨calm, within, made'⟩
  · -- an error weighs as much as any findings
    rw [made']
    rcases classify_cases ds budget with ⟨-, made⟩ | ⟨-, -, made⟩ | ⟨-, -, made⟩ <;>
      rw [made] <;> decide
  · rcases classify_cases ds budget with ⟨⟨d, member, bad⟩, -⟩ | ⟨-, -, made⟩ | ⟨-, -, made⟩
    · exact absurd bad (calm d (more.subset member))
    · exact Nat.le_of_eq (congrArg exitCode (made.trans made'.symm))
    · rw [made]
      exact Nat.zero_le _
  · rcases classify_cases ds budget with ⟨⟨d, member, bad⟩, -⟩ | ⟨-, exceeded, -⟩ | ⟨-, -, made⟩
    · exact absurd bad (calm d (more.subset member))
    · have still := Budget.le_iff.mp smaller _
        (Budget.isExceededBy_of_le (more.countP_le _) exceeded)
      rw [within] at still
      cases still
    · rw [made]
      exact Nat.zero_le _

/-- A file is checked with findings added to those of another check of it. -/
structure Extends (r r' : CheckResult) : Prop where
  file : r'.file = r.file
  checked : r'.isFailed = false
  findings : r.diagnostics.Sublist r'.diagnostics

variable {rs rs' : List CheckResult}

theorem sublist_flatMap_of_extends (h : List.Forall₂ Extends rs rs') :
    (rs.flatMap (·.diagnostics)).Sublist (rs'.flatMap (·.diagnostics)) := by
  induction h with
  | nil => exact .refl _
  | cons here _ ih =>
    rw [List.flatMap_cons, List.flatMap_cons]
    exact here.findings.append ih

theorem checked_of_extends (h : List.Forall₂ Extends rs rs') : ∀ r ∈ rs', r.isFailed = false := by
  induction h with
  | nil => simp
  | cons here _ ih => exact List.forall_mem_cons.mpr ⟨here.checked, ih⟩

/-- The number of warnings in some files. -/
def warnings : List CheckResult → Nat
  | [] => 0
  | r :: rs => r.diagnostics.countP (·.severity = .warning) + warnings rs

theorem countP_flatMap_diagnostics (rs : List CheckResult) :
    (rs.flatMap (·.diagnostics)).countP (·.severity = .warning) = warnings rs := by
  induction rs with
  | nil => rfl
  | cons r rs ih => rw [List.flatMap_cons, List.countP_append, ih, warnings]

/-- When no file fails, the verdict depends on the findings and the budget alone. The order of the
    files does not matter, nor do the order of the findings and the files they are in. With findings
    added to some files the exit code is not smaller, and with a larger budget it is not larger. An
    error decides, and without one the number of warnings does. -/
theorem decide_weighs (present : rs ≠ []) (ok : ∀ r ∈ rs, r.isFailed = false) (budget : Budget) :
    (∀ rs', rs.Perm rs' → (decide rs' budget).1 = (decide rs budget).1) ∧
    (∀ rs', rs' ≠ [] → (∀ r ∈ rs', r.isFailed = false) →
      (rs.flatMap (·.diagnostics)).Perm (rs'.flatMap (·.diagnostics)) →
      (decide rs' budget).1 = (decide rs budget).1) ∧
    (∀ rs', List.Forall₂ Extends rs rs' →
      (decide rs budget).1.exitCode ≤ (decide rs' budget).1.exitCode) ∧
    (∀ budget', budget ≤ budget' →
      (decide rs budget').1.exitCode ≤ (decide rs budget).1.exitCode) ∧
    ((decide rs budget).1 = .error ↔ ∃ r ∈ rs, ∃ d ∈ r.diagnostics, d.severity = .error) ∧
    ((decide rs budget).1 = .warning ↔
      (∀ r ∈ rs, ∀ d ∈ r.diagnostics, d.severity ≠ .error) ∧
        ∃ count, budget = .max count ∧ count < warnings rs) ∧
    ((decide rs budget).1 = .ok ↔
      (∀ r ∈ rs, ∀ d ∈ r.diagnostics, d.severity ≠ .error) ∧
        ∀ count, budget = .max count → warnings rs ≤ count) := by
  have rearranged (rs' : List CheckResult) (present' : rs' ≠ [])
      (ok' : ∀ r ∈ rs', r.isFailed = false)
      (same : (rs.flatMap (·.diagnostics)).Perm (rs'.flatMap (·.diagnostics))) :
      (decide rs' budget).1 = (decide rs budget).1 := by
    rw [decide_of_ok present ok, decide_of_ok present' ok']
    exact (classify_perm same budget).symm
  refine ⟨?_, rearranged, ?_, ?_, ?_, ?_, ?_⟩
  · intro rs' reordered
    have present' : rs' ≠ [] := by
      rintro rfl
      exact present reordered.eq_nil
    have ok' : ∀ r ∈ rs', r.isFailed = false := fun r member => ok r (reordered.mem_iff.mpr member)
    exact rearranged rs' present' ok' (reordered.flatMap_right _)
  · intro rs' extended
    have present' : rs' ≠ [] := by
      rintro rfl
      cases extended
      exact present rfl
    rw [decide_of_ok present ok, decide_of_ok present' (checked_of_extends extended)]
    exact exitCode_classify_mono (sublist_flatMap_of_extends extended).subperm
      (Budget.le_iff.mpr fun _ exceeded => exceeded)
  · intro budget' larger
    rw [decide_of_ok present ok, decide_of_ok present ok]
    exact exitCode_classify_mono (List.Subperm.refl _) larger
  · rw [decide_of_ok present ok, classify_eq_error_iff]
    constructor
    · rintro ⟨d, found, bad⟩
      obtain ⟨r, member, found⟩ := List.mem_flatMap.mp found
      exact ⟨r, member, d, found, bad⟩
    · rintro ⟨r, member, d, found, bad⟩
      exact ⟨d, List.mem_flatMap.mpr ⟨r, member, found⟩, bad⟩
  · rw [decide_of_ok present ok, classify_eq_warning_iff, List.forall_mem_flatMap,
      countP_flatMap_diagnostics, Budget.isExceededBy_iff]
  · rw [decide_of_ok present ok, classify_eq_ok_iff, List.forall_mem_flatMap,
      countP_flatMap_diagnostics, ← Bool.not_eq_true, Budget.isExceededBy_iff]
    simp only [not_exists, not_and, Nat.not_lt]

/-- Three warnings in two files exceed a budget of two. They still do in one file, not with a budget
    of three, and an error that is added decides. -/
theorem decide_weighs_warnings :
    let found (severity : Severity) : Diagnostic :=
      ⟨⟨"hex-length", by decide⟩, severity, ⟨1, 1⟩, "", none⟩
    let first : CheckResult := ⟨"a.less", .ok [found .warning]⟩
    let second : CheckResult := ⟨"b.less", .ok [found .warning, found .warning]⟩
    let graver : CheckResult := ⟨"a.less", .ok [found .error, found .warning]⟩
    let all : CheckResult := ⟨"c.less", .ok [found .warning, found .warning, found .warning]⟩
    (∀ r ∈ [first, second], r.isFailed = false) ∧
    (decide [first, second] (.max 2)).1 = .warning ∧
    (decide [second, first] (.max 2)).1 = (decide [first, second] (.max 2)).1 ∧
    (decide [all] (.max 2)).1 = (decide [first, second] (.max 2)).1 ∧
    List.Forall₂ Extends [first, second] [graver, second] ∧
    (decide [first, second] (.max 2)).1.exitCode ≤ (decide [graver, second] (.max 2)).1.exitCode ∧
    (decide [graver, second] (.max 2)).1 = .error ∧
    (.max 2 : Budget) ≤ .max 3 ∧
    (decide [first, second] (.max 3)).1.exitCode ≤ (decide [first, second] (.max 2)).1.exitCode ∧
    (decide [first, second] (.max 3)).1 = .ok := by
  intro found first second graver all
  have ok : ∀ r ∈ [first, second], r.isFailed = false := by
    simp [first, second, CheckResult.isFailed]
  have extended : List.Forall₂ Extends [first, second] [graver, second] :=
    .cons ⟨rfl, rfl, List.sublist_cons_self _ _⟩ (.cons ⟨rfl, rfl, .refl _⟩ .nil)
  have larger : (.max 2 : Budget) ≤ .max 3 := Nat.le_succ 2
  obtain ⟨reordered, rearranged, more, less, -, -, -⟩ :=
    decide_weighs (List.cons_ne_nil first [second]) ok (.max 2)
  exact ⟨ok, rfl, reordered _ (.swap _ _ _),
    rearranged [all] (List.cons_ne_nil _ _) (by simp [all, CheckResult.isFailed]) (.refl _),
    extended, more _ extended, rfl, larger, less _ larger, rfl⟩

end Verdict

end SheetLint
