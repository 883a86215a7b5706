import SheetLint.Verdict
import Mathlib.Data.List.Basic

/-!
# Results that are left out

When the check of a file has failed, the run fails, whatever the other files come to. So results can
be left out as long as a failure stays (`Verdict.decide_of_thins`): the run still fails, with
nothing to report, and if nothing is left out in front of the first failure, the verdict is the
same.
-/

namespace SheetLint.Verdict

variable {rs kept before : List CheckResult} {r : CheckResult} {fault : Fault}

theorem firstFault?_append (h : ∀ r ∈ rs, r.isFailed = false) (after : List CheckResult) :
    firstFault? (rs ++ after) = firstFault? after := by
  induction rs with
  | nil => rfl
  | cons r rs ih =>
    obtain ⟨here, behind⟩ := List.forall_mem_cons.mp h
    cases outcome : r.outcome with
    | error fault => simp [CheckResult.isFailed, outcome] at here
    | ok ds => rw [List.cons_append, firstFault?, outcome, ih behind]

/-- The first result that failed decides, whatever stands behind it. -/
theorem decide_of_failed (h : ∀ r ∈ rs, r.isFailed = false) (failed : r.outcome = .error fault)
    (after : List CheckResult) (budget : Budget) :
    decide (rs ++ r :: after) budget = (ofFault r.file fault, []) := by
  have first : firstFault? (rs ++ r :: after) = some (r.file, fault) := by
    rw [firstFault?_append h, firstFault?, failed]
  have present : (rs ++ r :: after).isEmpty = false := by simp
  simp only [decide, present, first, Bool.false_eq_true, if_false]

/-- Without a failure, the diagnostics of all files are reported and judged. -/
theorem decide_of_ok (some : rs ≠ []) (ok : ∀ r ∈ rs, r.isFailed = false) (budget : Budget) :
    decide rs budget =
      (classify (rs.flatMap (·.diagnostics)) budget, rs.flatMap (·.diagnostics)) := by
  have clean : firstFault? rs = none := by
    have all := firstFault?_append ok []
    rwa [List.append_nil] at all
  have present : rs.isEmpty = false := by simpa using some
  simp only [decide, present, clean, Bool.false_eq_true, if_false]

theorem diagnostics_decide_of_ok (h : ∀ r ∈ rs, r.isFailed = false) (budget : Budget) :
    (decide rs budget).2 = rs.flatMap (·.diagnostics) := by
  by_cases absent : rs = []
  · subst absent
    rfl
  · rw [decide_of_ok absent h]

theorem ofFault_eq (file : Path) (fault : Fault) :
    ofFault file fault =
      match fault with
      | .rule (.invalidSetting ..) => .configFault (some file) fault.message
      | _ => .softwareFault file fault.message := by
  cases fault with
  | source e => rfl
  | rule e => cases e <;> rfl

theorem exists_outcome_of_isFailed (h : r.isFailed = true) : ∃ fault, r.outcome = .error fault := by
  cases outcome : r.outcome with
  | ok ds => simp [CheckResult.isFailed, outcome] at h
  | error fault => exact ⟨fault, rfl⟩

/-- The first failure among results that hold one. -/
theorem exists_first_failed (h : ∃ r ∈ rs, r.isFailed = true) :
    ∃ before r after fault, rs = before ++ r :: after ∧ (∀ b ∈ before, b.isFailed = false) ∧
      r.outcome = .error fault := by
  obtain ⟨r, found⟩ := Option.isSome_iff_exists.mp (List.find?_isSome.mpr h)
  obtain ⟨failed, before, after, rfl, ok⟩ := List.find?_eq_some_iff_append.mp found
  obtain ⟨fault, outcome⟩ := exists_outcome_of_isFailed failed
  exact ⟨before, r, after, fault, rfl, by simpa using ok, outcome⟩

theorem isFault_ofFault (file : Path) (fault : Fault) : (ofFault file fault).isFault = true := by
  rw [ofFault]
  split
  · rfl
  · rfl

theorem isFault_classify (ds : List Diagnostic) (budget : Budget) :
    (classify ds budget).isFault = false := by
  unfold classify
  repeat' split
  all_goals rfl

/-- One of the failures decides, and nothing is reported. -/
theorem exists_decide_eq_ofFault (h : ∃ r ∈ rs, r.isFailed = true) (budget : Budget) :
    ∃ r ∈ rs, ∃ fault, r.outcome = .error fault ∧
      decide rs budget = (ofFault r.file fault, []) := by
  obtain ⟨before, r, after, fault, rfl, ok, outcome⟩ := exists_first_failed h
  exact ⟨r, by simp, fault, outcome, decide_of_failed ok outcome after budget⟩

/-- The run fails exactly if the check of a file has failed. -/
theorem isFault_decide_iff (budget : Budget) :
    (decide rs budget).1.isFault = true ↔ ∃ r ∈ rs, r.isFailed = true := by
  constructor
  · intro faulty
    by_contra none
    have ok : ∀ r ∈ rs, r.isFailed = false := by simpa using none
    by_cases absent : rs = []
    · subst absent
      cases faulty
    · rw [decide_of_ok absent ok, isFault_classify] at faulty
      cases faulty
  · intro failed
    obtain ⟨r, -, fault, -, decided⟩ := exists_decide_eq_ofFault failed budget
    rw [decided]
    exact isFault_ofFault r.file fault

/-- What is kept of some results: all of them, or a part of them that holds a failure. -/
structure Thins (kept rs : List CheckResult) : Prop where
  part : kept.Sublist rs
  failed : kept ≠ rs → ∃ r ∈ kept, r.isFailed = true

/-- Something has failed among the results exactly if something has failed among those kept. -/
theorem Thins.exists_failed_iff (h : Thins kept rs) :
    (∃ r ∈ rs, r.isFailed = true) ↔ ∃ r ∈ kept, r.isFailed = true := by
  constructor
  · intro failed
    by_cases all : kept = rs
    · rw [all]
      exact failed
    · exact h.failed all
  · rintro ⟨r, member, failed⟩
    exact ⟨r, h.part.subset member, failed⟩

/-- Without a failure nothing can be left out. -/
theorem Thins.eq_of_ok (h : Thins kept rs) (ok : ∀ r ∈ rs, r.isFailed = false) : kept = rs := by
  by_contra less
  obtain ⟨r, member, failed⟩ := h.failed less
  rw [ok r (h.part.subset member)] at failed
  cases failed

/-- Results that begin alike up to a first failure come to the same. -/
theorem decide_of_front (ok : ∀ b ∈ before, b.isFailed = false) (failed : r.isFailed = true)
    (front : before ++ [r] <+: rs) (keeps : before ++ [r] <+: kept) (budget : Budget) :
    decide kept budget = decide rs budget := by
  obtain ⟨fault, outcome⟩ := exists_outcome_of_isFailed failed
  obtain ⟨after, rfl⟩ := front
  obtain ⟨rest, rfl⟩ := keeps
  rw [List.append_assoc, List.append_assoc, List.singleton_append, List.singleton_append,
    decide_of_failed ok outcome, decide_of_failed ok outcome]

/-- Results may be left out as long as a failure stays. The run fails with the results that are kept
    exactly if it fails with all of them, with nothing to report then, and it tells of a file that
    has failed. Without a failure, or if all is kept up to the first one, nothing changes. -/
theorem decide_of_thins (h : Thins kept rs) (budget : Budget) :
    ((decide rs budget).1.isFault = true ↔ (decide kept budget).1.isFault = true) ∧
    ((decide rs budget).1.isFault = true →
      (decide rs budget).2 = [] ∧ (decide kept budget).2 = [] ∧
        ∃ r ∈ rs, ∃ fault, r.outcome = .error fault ∧
          (decide kept budget).1 =
            match fault with
            | .rule (.invalidSetting ..) => .configFault (some r.file) fault.message
            | _ => .softwareFault r.file fault.message) ∧
    ((∀ r ∈ rs, r.isFailed = false) → decide kept budget = decide rs budget) ∧
    (∀ before r after, rs = before ++ r :: after → (∀ b ∈ before, b.isFailed = false) →
      r.isFailed = true → before ++ [r] <+: kept → decide kept budget = decide rs budget) := by
  refine ⟨?_, ?_, ?_, ?_⟩
  · rw [isFault_decide_iff, isFault_decide_iff, h.exists_failed_iff]
  · intro faulty
    have failed := (isFault_decide_iff budget).mp faulty
    obtain ⟨_, -, _, -, decided⟩ := exists_decide_eq_ofFault failed budget
    obtain ⟨r, member, fault, outcome, decidedKept⟩ :=
      exists_decide_eq_ofFault (h.exists_failed_iff.mp failed) budget
    rw [decided, decidedKept]
    exact ⟨rfl, rfl, r, h.part.subset member, fault, outcome, ofFault_eq r.file fault⟩
  · intro ok
    rw [h.eq_of_ok ok]
  · rintro before r after rfl ok failed keeps
    exact decide_of_front ok failed ⟨after, by simp⟩ keeps budget

/-- With the first of two failures left out, the second one decides, and the kind of fault
    changes. -/
theorem decide_of_thins_second :
    let clean : CheckResult := ⟨"a.less", .ok []⟩
    let first : CheckResult := ⟨"b.less", .error (.rule (.invalidSetting "hex-length" "medium"))⟩
    let second : CheckResult := ⟨"c.less", .error (.source (.crash none))⟩
    Thins [clean, second] [clean, first, second] ∧
    (decide [clean, first, second] .unlimited).1 =
      .configFault (some "b.less") "Invalid setting value for hex-length: medium" ∧
    (decide [clean, second] .unlimited).1 = .softwareFault "c.less" "panic: unknown panic" ∧
    ((decide [clean, first, second] .unlimited).1.isFault = true ↔
      (decide [clean, second] .unlimited).1.isFault = true) := by
  intro clean first second
  have thins : Thins [clean, second] [clean, first, second] :=
    ⟨(List.sublist_cons_self first [second]).cons_cons clean, fun _ => ⟨second, by simp, rfl⟩⟩
  exact ⟨thins, rfl, rfl, (decide_of_thins thins .unlimited).1⟩

end SheetLint.Verdict
