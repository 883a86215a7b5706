import SheetLint.ActiveRules
import Mathlib.Data.List.Basic

/-!
# The index of kinds

The index of active rules is kept up while rules are added. It answers for each kind of node as a
scan of all rules would (`ActiveRules.Indexed`).
-/

namespace SheetLint.ActiveRules

variable {active : ActiveRules} {index : NodeKind → List Nat} {place : Nat} {kind : NodeKind}

/-- The rules of a run, added one by one. -/
def ofList (rules : List ActiveRule) : ActiveRules :=
  rules.foldl push empty

theorem note_of_ne {k : NodeKind} (h : kind ≠ k) : note index place k kind = index kind := by
  simp [note, h]

theorem note_self_of_fresh (fresh : place ∉ index kind) :
    note index place kind kind = index kind ++ [place] := by
  have open_end : (index kind).getLast? ≠ some place := by
    intro last
    exact fresh (List.mem_of_getLast? last)
  simp [note, open_end]

theorem note_self_of_noted (noted : (index kind).getLast? = some place) :
    note index place kind kind = index kind := by
  simp [note, noted]

/-- A rule that is noted under a kind is not noted there again. -/
theorem foldl_note_of_noted (kinds : List NodeKind)
    (noted : (index kind).getLast? = some place) :
    kinds.foldl (fun index k => note index place k) index kind = index kind := by
  induction kinds generalizing index with
  | nil => rfl
  | cons k kinds ih =>
    have same : note index place k kind = index kind := by
      by_cases h : kind = k
      · subst h
        exact note_self_of_noted noted
      · exact note_of_ne h
    rw [List.foldl_cons, ih (by rw [same]; exact noted), same]

/-- A new rule is noted once under each kind that it names, however often it names it. -/
theorem foldl_note (kinds : List NodeKind) (fresh : place ∉ index kind) :
    kinds.foldl (fun index k => note index place k) index kind =
      if kind ∈ kinds then index kind ++ [place] else index kind := by
  induction kinds generalizing index with
  | nil => simp
  | cons k kinds ih =>
    rw [List.foldl_cons]
    by_cases h : kind = k
    · subst h
      have noted : note index place kind kind = index kind ++ [place] := note_self_of_fresh fresh
      rw [foldl_note_of_noted kinds (by rw [noted, List.getLast?_concat]), noted]
      simp
    · have same : note index place k kind = index kind := note_of_ne h
      rw [ih (by rw [same]; exact fresh), same]
      simp [h]

/-- The index points at rules of the run, and finds those that a scan of all of them finds. -/
structure Indexed (active : ActiveRules) : Prop where
  bounded : ∀ kind, ∀ place ∈ active.index kind, place < active.rules.size
  scan : ∀ kind,
    active.rulesFor kind = active.rules.toList.filter fun r => r.rule.kinds.contains kind

theorem indexed_empty : empty.Indexed :=
  ⟨by simp [empty], by simp [empty, rulesFor]⟩

theorem index_push (h : active.Indexed) (r : ActiveRule) (kind : NodeKind) :
    (active.push r).index kind =
      if kind ∈ r.rule.kinds then active.index kind ++ [active.rules.size]
      else active.index kind := by
  have fresh : active.rules.size ∉ active.index kind := by
    intro found
    exact Nat.lt_irrefl _ (h.bounded kind _ found)
  exact foldl_note r.rule.kinds fresh

/-- Adding a rule keeps the index. -/
theorem Indexed.push (h : active.Indexed) (r : ActiveRule) : (active.push r).Indexed := by
  have rules : (active.push r).rules = active.rules.push r := rfl
  have kept (kind : NodeKind) :
      (active.index kind).filterMap ((active.rules.push r)[·]?) = active.rulesFor kind := by
    apply List.filterMap_congr
    intro place found
    have before := h.bounded kind place found
    rw [Array.getElem?_push_lt before, Array.getElem?_eq_getElem before]
  constructor
  · intro kind place found
    rw [rules, Array.size_push]
    rw [index_push h] at found
    by_cases wanted : kind ∈ r.rule.kinds
    · rw [if_pos wanted, List.mem_append, List.mem_singleton] at found
      rcases found with found | rfl
      · exact Nat.lt_succ_of_lt (h.bounded kind place found)
      · exact Nat.lt_succ_self _
    · rw [if_neg wanted] at found
      exact Nat.lt_succ_of_lt (h.bounded kind place found)
  · intro kind
    rw [rulesFor, index_push h, rules, Array.toList_push, List.filter_append, ← h.scan kind]
    by_cases wanted : kind ∈ r.rule.kinds
    · rw [if_pos wanted, List.filterMap_append, kept]
      simp [wanted]
    · rw [if_neg wanted, kept]
      simp [wanted]

/-- Adding rules one by one adds them at the end and keeps the index. -/
theorem foldl_push (h : active.Indexed) (rules : List ActiveRule) :
    (rules.foldl push active).Indexed ∧
      (rules.foldl push active).rules.toList = active.rules.toList ++ rules := by
  induction rules generalizing active with
  | nil => simpa using h
  | cons r rules ih =>
    obtain ⟨indexed, added⟩ := ih (h.push r)
    refine ⟨indexed, ?_⟩
    rw [List.foldl_cons, added]
    simp [ActiveRules.push]

theorem indexed_ofList (rules : List ActiveRule) : (ofList rules).Indexed :=
  (foldl_push indexed_empty rules).1

@[simp]
theorem rules_ofList (rules : List ActiveRule) : (ofList rules).rules.toList = rules :=
  (foldl_push indexed_empty rules).2

end SheetLint.ActiveRules
