import SheetLint.Proofs.ConfigRoundTrip

/-!
# Overrides

Overrides of a valid configuration fail over nothing but the patterns that they add, and the first
of these that is no glob decides (`Config.withOverrides_eq`). It makes no difference then whether
overrides come one after the other or all at once (`Config.withOverrides_append`).
-/

namespace SheetLint.Config

variable {c c' : Config}

/-- The configuration with patterns and plugins added, whether they are valid or not. -/
def extend (c : Config) (exclude linters : List String) : Config :=
  { c with excludedFiles := c.excludedFiles ++ exclude, linters := c.linters ++ linters }

theorem extend_extend (c : Config) (e₁ e₂ l₁ l₂ : List String) :
    (c.extend e₁ l₁).extend e₂ l₂ = c.extend (e₁ ++ e₂) (l₁ ++ l₂) := by
  simp only [extend, List.append_assoc]

/-- Patterns are checked from the first to the last. -/
theorem forM_checkPattern_append (xs ys : List String) : (xs ++ ys).forM checkPattern =
    (xs.forM checkPattern >>= fun _ => ys.forM checkPattern) :=
  List.forM_append

/-- Of a valid configuration, only what is added decides. -/
theorem validate_extend (valid : c.validate = .ok ()) (exclude linters : List String) :
    (c.extend exclude linters).validate = exclude.forM checkPattern := by
  obtain ⟨_, patterns, rest⟩ := bind_eq_ok.mp valid
  obtain ⟨_, extensions, keys⟩ := bind_eq_ok.mp rest
  have unfolded : (c.extend exclude linters).validate =
      ((c.excludedFiles ++ exclude).forM checkPattern >>= fun _ =>
        c.fileExtensions.forM checkExtension >>= fun _ => c.rules.keys.forM checkRuleKey) := rfl
  rw [unfolded, forM_checkPattern_append, patterns, extensions, keys]
  cases exclude.forM checkPattern <;> rfl

theorem withOverrides_eq (valid : c.validate = .ok ()) (exclude linters : List String) :
    c.withOverrides exclude linters = (do
      exclude.forM checkPattern
      return c.extend exclude linters) := by
  rw [← validate_extend valid exclude linters]
  rfl

theorem eq_extend_of_withOverrides {exclude linters : List String}
    (h : c.withOverrides exclude linters = .ok c') : c' = c.extend exclude linters := by
  obtain ⟨_, -, made⟩ := bind_eq_ok.mp h
  exact (Except.ok.inj made).symm

/-- Overrides one after the other give the same configuration, or the same error, as all of them at
    once. They change the patterns and the plugins and nothing else. -/
theorem withOverrides_append (valid : c.validate = .ok ()) (e₁ e₂ l₁ l₂ : List String) :
    (c.withOverrides e₁ l₁ >>= fun c' => c'.withOverrides e₂ l₂) =
      c.withOverrides (e₁ ++ e₂) (l₁ ++ l₂) ∧
    ∀ exclude linters c', c.withOverrides exclude linters = .ok c' →
      c'.fileExtensions = c.fileExtensions ∧ c'.rules = c.rules ∧
      c'.excludedFiles = c.excludedFiles ++ exclude ∧ c'.linters = c.linters ++ linters := by
  constructor
  · rw [withOverrides_eq valid e₁, withOverrides_eq valid (e₁ ++ e₂), forM_checkPattern_append]
    cases patterns : e₁.forM checkPattern with
    | error e => rfl
    | ok _ =>
      -- the first overrides succeed, so what they give is valid again
      have validToo : (c.extend e₁ l₁).validate = .ok () :=
        (validate_extend valid e₁ l₁).trans patterns
      rw [← extend_extend]
      exact withOverrides_eq validToo e₂ l₂
  · intro exclude linters c' made
    rw [eq_extend_of_withOverrides made]
    exact ⟨rfl, rfl, rfl, rfl⟩

/-- Patterns are added to those of a file. The second of them is no glob, and the third is another
    that is none. -/
theorem withOverrides_append_faulty :
    ∃ c, parseToml "excludedFiles = [\"v/**\"]\nhex-length = false\n" = .ok c ∧
      (c.excludedFiles, c.rules.keys) = (["v/**"], ["hex-length"]) ∧
      (c.withOverrides ["a*"] ["one"] >>= fun c' => c'.withOverrides ["[b", "\x7bc"] ["two"]) =
        c.withOverrides (["a*"] ++ ["[b", "\x7bc"]) (["one"] ++ ["two"]) ∧
      c.withOverrides ["a*", "[b", "\x7bc"] ["one", "two"] =
        .error (.invalidGlob "[b" .unclosedClass) := by
  have computed : (parseToml "excludedFiles = [\"v/**\"]\nhex-length = false\n").toOption.map
      (fun c => (c.excludedFiles, c.rules.keys)) = some (["v/**"], ["hex-length"]) := by
    decide +kernel
  apply exists_ok_of_map_toOption computed
  intro c read
  have valid : c.validate = .ok () := Returned.validate_eq_ok (.toml read)
  refine ⟨(withOverrides_append valid _ _ _ _).1, ?_⟩
  have fails : ["a*", "[b", "\x7bc"].forM checkPattern =
      .error (.invalidGlob "[b" .unclosedClass) := by
    decide +kernel
  rw [withOverrides_eq valid, fails]
  rfl

end SheetLint.Config
