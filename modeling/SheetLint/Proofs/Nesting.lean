import SheetLint.Token
import Mathlib.Data.List.Infix
import Mathlib.Tactic.Ring

/-!
# Nesting of brackets

Brackets of one kind are counted along a list of tokens: those opened less those closed. A list is
balanced if the count never falls below zero and ends at zero. Everything is stated for tokens that
follow `d` open brackets, so that a reader can be followed from the middle of its input.
-/

namespace SheetLint

/-- A kind of bracket: the delimiters that open one and the delimiters that close one. -/
structure Bracket where
  opening : List Char
  closing : List Char

namespace Bracket

/-- Round and square brackets, which pair with each other. -/
def any : Bracket := ⟨['(', '['], [')', ']']⟩

/-- Round brackets alone. -/
def round : Bracket := ⟨['('], [')']⟩

/-- Braces. -/
def brace : Bracket := ⟨['\x7b'], ['\x7d']⟩

/-- The token opens a bracket of this kind. -/
def opens (b : Bracket) (t : Token) : Bool :=
  b.opening.any t.isDelimiter

/-- The token closes a bracket of this kind. -/
def closes (b : Bracket) (t : Token) : Bool :=
  b.closing.any t.isDelimiter

/-- The brackets opened in some tokens less those closed in them. -/
def depth (b : Bracket) (ts : List Token) : Int :=
  (ts.countP b.opens : Int) - ts.countP b.closes

/-- Behind `d` open brackets no bracket is closed that is not open, and none is open at the end. -/
structure BalancedFrom (b : Bracket) (d : Int) (ts : List Token) : Prop where
  nonneg : ∀ p, p <+: ts → 0 ≤ d + b.depth p
  settled : d + b.depth ts = 0

/-- No bracket is closed that is not open, and none is open at the end. -/
def Balanced (b : Bracket) (ts : List Token) : Prop :=
  b.BalancedFrom 0 ts

/-- Behind `d` open brackets never more than `limit` are open. -/
def DepthAtMostFrom (b : Bracket) (limit : Nat) (d : Int) (ts : List Token) : Prop :=
  ∀ p, p <+: ts → d + b.depth p ≤ limit

/-- Never more than `limit` brackets are open. -/
def DepthAtMost (b : Bracket) (limit : Nat) (ts : List Token) : Prop :=
  b.DepthAtMostFrom limit 0 ts

variable {b : Bracket} {limit : Nat} {d : Int} {t : Token} {ts us : List Token}

@[simp]
theorem depth_nil : b.depth [] = 0 := rfl

theorem depth_append (ts us : List Token) : b.depth (ts ++ us) = b.depth ts + b.depth us := by
  simp only [depth, List.countP_append, Nat.cast_add]
  ring

theorem depth_cons (t : Token) (ts : List Token) : b.depth (t :: ts) = b.depth [t] + b.depth ts :=
  depth_append [t] ts

theorem depth_of_opens (ho : b.opens t = true) (hc : b.closes t = false) : b.depth [t] = 1 := by
  simp [depth, ho, hc]

theorem depth_of_closes (ho : b.opens t = false) (hc : b.closes t = true) : b.depth [t] = -1 := by
  simp [depth, ho, hc]

theorem depth_of_other (ho : b.opens t = false) (hc : b.closes t = false) : b.depth [t] = 0 := by
  simp [depth, ho, hc]

/-- A statement about all beginnings of a list speaks of the empty one and of the longer ones. -/
theorem forall_prefix_cons {P : List Token → Prop} :
    (∀ p, p <+: t :: ts → P p) ↔ P [] ∧ ∀ p, p <+: ts → P (t :: p) := by
  constructor
  · intro h
    refine ⟨h [] List.nil_prefix, fun p hp => h (t :: p) ?_⟩
    exact (List.cons_prefix_cons).mpr ⟨rfl, hp⟩
  · rintro ⟨hnil, hcons⟩ p hp
    rcases List.prefix_cons_iff.mp hp with rfl | ⟨q, rfl, hq⟩
    · exact hnil
    · exact hcons q hq

theorem balancedFrom_nil : b.BalancedFrom d [] ↔ d = 0 := by
  constructor
  · intro h
    simpa using h.settled
  · rintro rfl
    refine ⟨fun p hp => ?_, by simp⟩
    rw [List.prefix_nil.mp hp]
    simp

/-- The depth at the start is one of the depths that count. -/
theorem BalancedFrom.start (h : b.BalancedFrom d ts) : 0 ≤ d := by
  simpa using h.nonneg [] List.nil_prefix

/-- Balance can be followed from token to token. -/
theorem balancedFrom_cons :
    b.BalancedFrom d (t :: ts) ↔ 0 ≤ d ∧ b.BalancedFrom (d + b.depth [t]) ts := by
  constructor
  · intro h
    refine ⟨h.start, fun p hp => ?_, ?_⟩
    · have := (forall_prefix_cons.mp h.nonneg).2 p hp
      rwa [depth_cons, ← add_assoc] at this
    · have := h.settled
      rwa [depth_cons, ← add_assoc] at this
  · rintro ⟨hd, h⟩
    refine ⟨forall_prefix_cons.mpr ⟨by simpa using hd, fun p hp => ?_⟩, ?_⟩
    · rw [depth_cons, ← add_assoc]
      exact h.nonneg p hp
    · rw [depth_cons, ← add_assoc]
      exact h.settled

theorem balancedFrom_cons_neutral (ht : b.depth [t] = 0) :
    b.BalancedFrom d (t :: ts) ↔ b.BalancedFrom d ts := by
  rw [balancedFrom_cons, ht, add_zero]
  exact and_iff_right_of_imp BalancedFrom.start

/-- The depth at the start is one of the depths that count. -/
theorem DepthAtMostFrom.start (h : b.DepthAtMostFrom limit d ts) : d ≤ limit := by
  simpa using h [] List.nil_prefix

theorem depthAtMostFrom_nil : b.DepthAtMostFrom limit d [] ↔ d ≤ limit := by
  refine ⟨DepthAtMostFrom.start, fun h p hp => ?_⟩
  rw [List.prefix_nil.mp hp]
  simpa using h

/-- A bound on the depth can be followed from token to token. -/
theorem depthAtMostFrom_cons :
    b.DepthAtMostFrom limit d (t :: ts) ↔
      d ≤ limit ∧ b.DepthAtMostFrom limit (d + b.depth [t]) ts := by
  constructor
  · intro h
    refine ⟨h.start, fun p hp => ?_⟩
    have := (forall_prefix_cons.mp h).2 p hp
    rwa [depth_cons, ← add_assoc] at this
  · rintro ⟨hd, h⟩
    refine forall_prefix_cons.mpr ⟨by simpa using hd, fun p hp => ?_⟩
    rw [depth_cons, ← add_assoc]
    exact h p hp

theorem depthAtMostFrom_cons_neutral (ht : b.depth [t] = 0) :
    b.DepthAtMostFrom limit d (t :: ts) ↔ b.DepthAtMostFrom limit d ts := by
  rw [depthAtMostFrom_cons, ht, add_zero]
  exact and_iff_right_of_imp DepthAtMostFrom.start

/-- Behind tokens that leave the depth as it was, the count goes on from there. -/
theorem depthAtMostFrom_append (hus : b.depth us = 0) :
    b.DepthAtMostFrom limit d (us ++ ts) ↔
      b.DepthAtMostFrom limit d us ∧ b.DepthAtMostFrom limit d ts := by
  constructor
  · intro h
    refine ⟨fun p hp => h p (hp.trans (List.prefix_append us ts)), fun p hp => ?_⟩
    have := h (us ++ p) ((List.prefix_append_right_inj us).mpr hp)
    rwa [depth_append, hus, zero_add] at this
  · rintro ⟨hu, ht⟩ p hp
    rcases List.prefix_or_prefix_of_prefix hp (List.prefix_append us ts) with hq | ⟨q, rfl⟩
    · exact hu p hq
    · have := ht q ((List.prefix_append_right_inj us).mp hp)
      rwa [depth_append, hus, zero_add]

/-- Behind balanced tokens, balance depends only on what follows. -/
theorem balancedFrom_append (hus : b.BalancedFrom 0 us) :
    b.BalancedFrom 0 (us ++ ts) ↔ b.BalancedFrom 0 ts := by
  have hdepth : b.depth us = 0 := by simpa using hus.settled
  constructor
  · intro h
    refine ⟨fun p hp => ?_, ?_⟩
    · have := h.nonneg (us ++ p) ((List.prefix_append_right_inj us).mpr hp)
      rwa [depth_append, hdepth, zero_add] at this
    · have := h.settled
      rwa [depth_append, hdepth, zero_add] at this
  · intro h
    refine ⟨fun p hp => ?_, ?_⟩
    · rcases List.prefix_or_prefix_of_prefix hp (List.prefix_append us ts) with hq | ⟨q, rfl⟩
      · exact hus.nonneg p hq
      · have := h.nonneg q ((List.prefix_append_right_inj us).mp hp)
        rwa [depth_append, hdepth, zero_add]
    · rw [depth_append, hdepth, zero_add]
      exact h.settled

theorem depth_eq_zero_of_neutral (neutral : ∀ t ∈ us, b.depth [t] = 0) : b.depth us = 0 := by
  induction us with
  | nil => rfl
  | cons t us ih =>
    rw [depth_cons, neutral t List.mem_cons_self, zero_add]
    exact ih fun u hu => neutral u (List.mem_cons_of_mem t hu)

theorem balancedFrom_append_neutral (neutral : ∀ t ∈ us, b.depth [t] = 0) :
    b.BalancedFrom d (us ++ ts) ↔ b.BalancedFrom d ts := by
  induction us with
  | nil => rfl
  | cons t us ih =>
    rw [List.cons_append, balancedFrom_cons_neutral (neutral t List.mem_cons_self),
      ih fun u hu => neutral u (List.mem_cons_of_mem t hu)]

theorem depthAtMostFrom_append_neutral (neutral : ∀ t ∈ us, b.depth [t] = 0) :
    b.DepthAtMostFrom limit d (us ++ ts) ↔ b.DepthAtMostFrom limit d ts := by
  induction us with
  | nil => rfl
  | cons t us ih =>
    rw [List.cons_append, depthAtMostFrom_cons_neutral (neutral t List.mem_cons_self),
      ih fun u hu => neutral u (List.mem_cons_of_mem t hu)]

variable {keep : Token → Bool}

/-- Tokens that are no brackets can be left out of what must be balanced. -/
theorem balancedFrom_filter (neutral : ∀ t, keep t = false → b.depth [t] = 0) :
    b.BalancedFrom d (ts.filter keep) ↔ b.BalancedFrom d ts := by
  induction ts generalizing d with
  | nil => simp
  | cons t ts ih =>
    cases kept : keep t with
    | true => rw [List.filter_cons_of_pos kept, balancedFrom_cons, balancedFrom_cons, ih]
    | false =>
      rw [List.filter_cons_of_neg (by simp [kept]), ih, balancedFrom_cons_neutral (neutral t kept)]

/-- Tokens that are no brackets can be left out of what has bounded depth. -/
theorem depthAtMostFrom_filter (neutral : ∀ t, keep t = false → b.depth [t] = 0) :
    b.DepthAtMostFrom limit d (ts.filter keep) ↔ b.DepthAtMostFrom limit d ts := by
  induction ts generalizing d with
  | nil => simp
  | cons t ts ih =>
    cases kept : keep t with
    | true => rw [List.filter_cons_of_pos kept, depthAtMostFrom_cons, depthAtMostFrom_cons, ih]
    | false =>
      rw [List.filter_cons_of_neg (by simp [kept]), ih,
        depthAtMostFrom_cons_neutral (neutral t kept)]

end Bracket

end SheetLint
