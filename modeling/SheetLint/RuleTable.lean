import SheetLint.Severity

/-!
# Rule tables

What a configuration says about single rules. The entries are kept in the order of their keys, one
for each key.
-/

namespace SheetLint

/-- The settings of a rule, each of which may be left open. -/
structure Settings where
  enabled : Option Bool := none
  severity : Option Severity := none
  style : Option String := none
  deriving DecidableEq, Repr

/-- What is said about a rule: whether it is on, or its settings. -/
inductive RuleValue where
  | toggle (enabled : Bool)
  | settings (settings : Settings)
  deriving DecidableEq, Repr

namespace RuleTable

/-- Puts an entry in its place among others that are in order; it takes the place of an entry with
    the same key. -/
def insertEntry (key : String) (value : RuleValue) :
    List (String × RuleValue) → List (String × RuleValue)
  | [] => [(key, value)]
  | (k, v) :: rest =>
    if key < k then (key, value) :: (k, v) :: rest
    else if key = k then (key, value) :: rest
    else (k, v) :: insertEntry key value rest

/-- Inserting an entry adds nothing else. -/
theorem mem_insertEntry {key : String} {value : RuleValue} {es : List (String × RuleValue)}
    {e : String × RuleValue} (h : e ∈ insertEntry key value es) : e = (key, value) ∨ e ∈ es := by
  induction es with
  | nil => simpa [insertEntry] using h
  | cons e' es ih =>
    simp only [insertEntry] at h
    split at h
    · simpa using h
    · split at h
      · simp only [List.mem_cons] at h ⊢
        exact h.elim .inl (.inr ∘ .inr)
      · simp only [List.mem_cons] at h ⊢
        rcases h with h | h
        · exact .inr (.inl h)
        · exact (ih h).elim .inl (.inr ∘ .inr)

/-- Inserting an entry keeps the keys in order and distinct. -/
theorem pairwise_insertEntry {key : String} {value : RuleValue} {es : List (String × RuleValue)}
    (h : es.Pairwise (·.1 < ·.1)) : (insertEntry key value es).Pairwise (·.1 < ·.1) := by
  induction es with
  | nil => simp [insertEntry]
  | cons e es ih =>
    obtain ⟨k, v⟩ := e
    obtain ⟨hk, hes⟩ := List.pairwise_cons.1 h
    simp only [insertEntry]
    split
    · rename_i hlt
      refine List.pairwise_cons.2 ⟨?_, h⟩
      intro e he
      rcases List.mem_cons.1 he with rfl | he
      · exact hlt
      · exact String.lt_trans hlt (hk e he)
    · split
      · rename_i _ heq
        subst heq
        exact List.pairwise_cons.2 ⟨hk, hes⟩
      · rename_i hnlt hne
        refine List.pairwise_cons.2 ⟨?_, ih hes⟩
        intro e he
        rcases mem_insertEntry he with rfl | he
        · show k < key
          grind
        · exact hk e he

end RuleTable

/-- Entries in the order of their keys. -/
structure RuleTable where
  entries : List (String × RuleValue)
  sorted : entries.Pairwise (·.1 < ·.1)
  deriving DecidableEq

namespace RuleTable

/-- No entries. -/
def empty : RuleTable := ⟨[], .nil⟩

/-- Says something about a rule, and takes back what was said under the same key. -/
def insert (t : RuleTable) (key : String) (value : RuleValue) : RuleTable :=
  ⟨insertEntry key value t.entries, pairwise_insertEntry t.sorted⟩

/-- What is said under a key. -/
def get? (t : RuleTable) (key : String) : Option RuleValue :=
  t.entries.lookup key

/-- The keys in order. -/
def keys (t : RuleTable) : List String :=
  t.entries.map (·.1)

theorem lookup_cons (k k' : String) (v : RuleValue) (es : List (String × RuleValue)) :
    ((k', v) :: es).lookup k = if k = k' then some v else es.lookup k := by
  by_cases h : k = k'
  · simp [h]
  · simp [List.lookup_cons, h, beq_eq_false_iff_ne.mpr h]

/-- Inserting an entry sets its key and no other one. -/
theorem lookup_insertEntry (key k : String) (value : RuleValue) (es : List (String × RuleValue)) :
    (insertEntry key value es).lookup k = if k = key then some value else es.lookup k := by
  induction es with
  | nil => exact lookup_cons k key value []
  | cons e es ih =>
    obtain ⟨k', v⟩ := e
    unfold insertEntry
    by_cases before : key < k'
    · rw [if_pos before, lookup_cons]
    · rw [if_neg before]
      by_cases same : key = k'
      · subst same
        rw [if_pos rfl, lookup_cons, lookup_cons]
        by_cases h : k = key <;> simp [h]
      · rw [if_neg same, lookup_cons, lookup_cons, ih]
        by_cases h : k = key
        · simp [h, same]
        · simp [h]

/-- What is said last under a key holds, and the other keys are as before. -/
theorem get?_insert (t : RuleTable) (key k : String) (value : RuleValue) :
    (t.insert key value).get? k = if k = key then some value else t.get? k :=
  lookup_insertEntry key k value t.entries

end RuleTable

end SheetLint
