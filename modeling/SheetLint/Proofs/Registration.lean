import SheetLint.Registry
import Mathlib.Data.List.Nodup

/-!
# Registration

Registries grow by one rule at a time. No two rules of a registry that has grown so have the same
name (`Registry.Built.nodup`), although a camel-case spelling of one name may be another name. A
word that is a spelling of several names picks the rule that was registered first.
-/

namespace SheetLint

/-- The word is the name itself or its camel-case spelling. -/
def RuleName.Spells (name : RuleName) (word : String) : Prop :=
  word = name.text ∨ word = name.camelCase

theorem RuleName.isSpelled_iff {name : RuleName} {word : String} :
    name.isSpelled word = true ↔ name.Spells word := by
  simp [isSpelled, Spells]

theorem RuleName.text_inj {m n : RuleName} : m.text = n.text ↔ m = n := by
  cases m
  cases n
  simp

/-- A name is made from its own text only. -/
theorem RuleName.ofString?_eq_some {text : String} {name : RuleName} :
    ofString? text = some name ↔ name.text = text := by
  constructor
  · intro h
    by_cases valid : isValid text = true
    · rw [ofString?, dif_pos valid] at h
      cases h
      rfl
    · rw [ofString?, dif_neg valid] at h
      cases h
  · rintro rfl
    rw [ofString?, dif_pos name.valid]

namespace Registry

variable {r r' : Registry} {rule : Rule} {plugin : Bool} {entry : RegisteredRule} {word : String}

theorem get?_eq_none {name : String} :
    r.get? name = none ↔ ∀ e ∈ r.entries, e.name.text ≠ name := by
  simp [get?]

theorem get?_isSome_eq_false {name : RuleName} :
    (r.get? name.text).isSome = false ↔ ∀ e ∈ r.entries, e.name ≠ name := by
  simp [get?_eq_none, RuleName.text_inj]

/-- What it takes to register a rule, and what comes of it. -/
theorem register_eq_ok : r.register rule plugin = .ok r' ↔
    ∃ name : RuleName, name.text = rule.name ∧ rule.kinds ≠ [] ∧
      (∀ e ∈ r.entries, e.name ≠ name) ∧ r' = ⟨r.entries ++ [⟨name, rule, plugin⟩]⟩ := by
  simp only [← RuleName.ofString?_eq_some, ← get?_isSome_eq_false]
  unfold register
  cases read : RuleName.ofString? rule.name with
  | none => simp
  | some name =>
    by_cases kinds : rule.kinds = []
    · simp [kinds]
    · cases found : r.get? name.text with
      | some e => simp [kinds, found]
      | none => simpa [kinds, found] using eq_comm

/-- The registry comes from registering rules one after the other. -/
inductive Built : Registry → Prop where
  | empty : Built .empty
  | register {r r' : Registry} {rule : Rule} {plugin : Bool} :
      Built r → r.register rule plugin = .ok r' → Built r'

/-- No two rules have the same name. -/
theorem Built.nodup (h : r.Built) : (r.entries.map (·.name)).Nodup := by
  induction h with
  | empty => exact List.nodup_nil
  | register _ added ih =>
    obtain ⟨name, -, -, unused, rfl⟩ := register_eq_ok.mp added
    rw [List.map_append]
    refine List.Nodup.append ih (List.nodup_singleton _) ?_
    intro other found same
    obtain ⟨e, he, rfl⟩ := List.mem_map.mp found
    exact unused e he (List.mem_singleton.mp same)

/-- A name belongs to one rule. -/
theorem Built.eq_of_name_eq (h : r.Built) {a b : RegisteredRule} (ha : a ∈ r.entries)
    (hb : b ∈ r.entries) (same : a.name = b.name) : a = b :=
  List.inj_on_of_nodup_map h.nodup ha hb same

theorem Built.concat (h : r.Built) (named : entry.name.text = entry.rule.name)
    (kinds : entry.rule.kinds ≠ []) (unused : ∀ e ∈ r.entries, e.name ≠ entry.name) :
    Built ⟨r.entries ++ [entry]⟩ :=
  .register h (register_eq_ok.mpr ⟨entry.name, named, kinds, unused, rfl⟩)

theorem built_builtin : builtin.Built := by
  have border : Built ⟨builtin.entries.take 1⟩ := Built.empty.concat rfl (by decide) nofun
  have color : Built ⟨builtin.entries.take 2⟩ := border.concat rfl (by decide) (by decide)
  have property : Built ⟨builtin.entries.take 3⟩ := color.concat rfl (by decide) (by decide)
  exact property.concat rfl (by decide) (by decide)

/-- The word is a spelling of the rule's name, and of no name that was registered before it. -/
def Picks (r : Registry) (word : String) (entry : RegisteredRule) : Prop :=
  ∃ before after, r.entries = before ++ entry :: after ∧ entry.name.Spells word ∧
    ∀ e ∈ before, ¬ e.name.Spells word

/-- A word means the rule that it picks. -/
theorem meant?_eq_some : r.meant? word = some entry ↔ r.Picks word entry := by
  have spelled (e : RegisteredRule) : (!e.name.isSpelled word) = true ↔ ¬ e.name.Spells word := by
    rw [← RuleName.isSpelled_iff, Bool.not_eq_true', Bool.not_eq_true]
  simp only [meant?, List.find?_eq_some_iff_append, RuleName.isSpelled_iff, spelled]
  constructor
  · rintro ⟨spells, before, after, split, others⟩
    exact ⟨before, after, split, spells, others⟩
  · rintro ⟨before, after, split, spells, others⟩
    exact ⟨spells, before, after, split, others⟩

theorem meant?_eq_none : r.meant? word = none ↔ ∀ e ∈ r.entries, ¬ e.name.Spells word := by
  simp only [meant?, List.find?_eq_none, RuleName.isSpelled_iff]

theorem Picks.mem (h : r.Picks word entry) : entry ∈ r.entries := by
  obtain ⟨before, after, split, -⟩ := h
  simp [split]

theorem Picks.spells (h : r.Picks word entry) : entry.name.Spells word := by
  obtain ⟨before, after, -, spells, -⟩ := h
  exact spells

end Registry

end SheetLint
