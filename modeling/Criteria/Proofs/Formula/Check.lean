import Criteria.Proofs.Formula.Canonical
import Criteria.Proofs.Token.Name

/-!
The check of formulas that come ready made. What a text spells passes it, since a formula is no
deeper than it has conditions, and a condition takes three tokens. The check does not tell which
formulas can be written: that takes fields that are names, finite numbers, and a written form that
keeps the limits.
-/

set_option autoImplicit false
set_option relaxedAutoImplicit false

namespace Criteria

/-! ### Conditions -/

/-- Whether the literal is a finite number or a text. -/
def Literal.IsFinite : Literal → Prop
  | .number x => x.isFinite = true
  | .text _ => True

instance (l : Literal) : Decidable l.IsFinite :=
  match l with
  | .number x => inferInstanceAs (Decidable (x.isFinite = true))
  | .text _ => inferInstanceAs (Decidable True)

/-- What the check asks of a condition: a field, and no quote in a text. -/
def Condition.Checked (c : Condition) : Prop :=
  c.field ≠ "" ∧ c.literal.hasQuote = false

namespace Condition

variable {c : Condition}

theorem Sayable.checked (h : c.Sayable) : c.Checked := by
  constructor
  · intro hempty
    have hne := (Token.whole_identifier_iff.mp h.field).ne_nil
    rw [hempty] at hne
    exact hne rfl
  · have hliteral := h.literal
    cases hc : c.literal with
    | number x => rfl
    | text s =>
      rw [hc] at hliteral
      simpa [Literal.hasQuote, Literal.Sayable] using hliteral

/-- A text without a quote can be said, and so can a finite number. -/
theorem Checked.sayable_iff (h : c.Checked) : c.literal.Sayable ↔ c.literal.IsFinite := by
  have hquote := h.2
  cases hc : c.literal with
  | number x => exact Iff.rfl
  | text s =>
    rw [hc] at hquote
    simpa [Literal.hasQuote, Literal.Sayable, Literal.IsFinite] using hquote

end Condition

namespace Formula

open Grammar Token

/-! ### The size of the written form -/

/-- How many tokens the written form has. A joined right operand takes a pair of parentheses. -/
def tokenCount : Formula → Nat
  | .test _ => 3
  | .join _ left right =>
    left.tokenCount + 1 + (if right.isJoin then right.tokenCount + 2 else right.tokenCount)

/-- How deep the groups of the written form lie inside one another. -/
def groupDepth : Formula → Nat
  | .test _ => 0
  | .join _ left right =>
    max left.groupDepth (if right.isJoin then right.groupDepth + 1 else right.groupDepth)

/-- Whether the written form keeps the limits. -/
def Fits (limits : Limits) (f : Formula) : Prop :=
  f.tokenCount ≤ limits.maxTokens ∧ f.groupDepth ≤ limits.maxDepth

instance (limits : Limits) (f : Formula) : Decidable (f.Fits limits) :=
  inferInstanceAs (Decidable (_ ∧ _))

variable {limits : Limits} {f : Formula}

theorem length_lexemes (f : Formula) : f.lexemes.length = f.tokenCount := by
  induction f with
  | test c => rfl
  | join connective left right ihleft ihright =>
    rw [lexemes_join, Lexeme.join, List.length_append, List.length_cons, phraseLexemes,
      phraseLexemes, tokenCount, ihleft]
    by_cases hjoin : right.isJoin = true
    · rw [if_pos hjoin, if_pos hjoin, length_parens, ihright]
      omega
    · rw [if_neg hjoin, if_neg hjoin, ihright]
      omega

theorem nesting_lexemes (h : f.Sayable) : nesting f.lexemes = f.groupDepth := by
  induction f with
  | test c => exact deepest_of_flat (flat_comparison rfl rfl c.literal.kind_lexeme) 0
  | join connective left right ihleft ihright =>
    obtain ⟨hleft, hright⟩ := sayable_join.mp h
    rw [lexemes_join, Lexeme.join, nesting_chain (derives_phraseLexemes hleft .expression) rfl,
      phraseLexemes, phraseLexemes, groupDepth, ihleft hleft]
    by_cases hjoin : right.isJoin = true
    · rw [if_pos hjoin, if_pos hjoin, nesting_parens hright, ihright hright]
    · rw [if_neg hjoin, if_neg hjoin, ihright hright]

/-- A formula is no deeper than it has conditions. -/
theorem depth_le_size (f : Formula) : f.depth ≤ f.size := by
  induction f with
  | test c => exact Nat.le_refl 1
  | join connective left right ihleft ihright =>
    have hleft := left.size_pos
    have hright := right.size_pos
    simp only [depth, size]
    omega

theorem size_le_tokenCount (f : Formula) : f.size ≤ f.tokenCount := by
  induction f with
  | test c => exact Nat.le_of_ble_eq_true rfl
  | join connective left right ihleft ihright =>
    simp only [size, tokenCount]
    split <;> omega

/-! ### What a text spells -/

/-- A text spells only formulas that can be said, and whose written forms keep the limits. -/
theorem fits_of_read {s : String} (h : read limits s = .ok f) : f.Sayable ∧ f.Fits limits := by
  obtain ⟨hf, hlength, hdepth⟩ := sayable_of_read h
  rw [length_lexemes] at hlength
  rw [nesting_lexemes hf] at hdepth
  exact ⟨hf, hlength, hdepth⟩

/-- The written form is read back exactly if the formula can be said and keeps the limits. -/
theorem read_write_iff : read limits f.write = .ok f ↔ f.Sayable ∧ f.Fits limits := by
  refine ⟨fits_of_read, ?_⟩
  rintro ⟨hf, hlength, hdepth⟩
  rw [← length_lexemes] at hlength
  rw [← nesting_lexemes hf] at hdepth
  exact read_eq_ok_iff.mpr
    ⟨f.lexemes, lexemes?_write hf, hlength, hdepth, derives_phraseLexemes hf .expression⟩

/-! ### The check -/

theorem checkConditions_eq_ok_iff (path : String) :
    f.checkConditions path = .ok () ↔ ∀ c ∈ f.conditions, c.Checked := by
  induction f generalizing path with
  | test c =>
    simp only [checkConditions, conditions, List.forall_mem_singleton, Condition.Checked]
    by_cases hfield : c.field = ""
    · simp [hfield]
    · by_cases hquote : c.literal.hasQuote = true
      · simp [hfield, hquote]
      · simp [hfield, hquote]
  | join connective left right ihleft ihright =>
    simp only [conditions, List.forall_mem_append]
    rw [← ihleft (path ++ ".left"), ← ihright (path ++ ".right"), checkConditions]
    cases left.checkConditions (path ++ ".left") with
    | error fault => simp [Bind.bind, Except.bind]
    | ok u => simp [Bind.bind, Except.bind]

/-- The check passes a formula that is not too deep, and each of whose conditions has a field and
no quote. -/
theorem check_eq_ok_iff :
    f.check limits = .ok () ↔ f.depth ≤ limits.maxTokens ∧ ∀ c ∈ f.conditions, c.Checked := by
  rw [check]
  by_cases hdepth : limits.maxTokens < f.depth
  · simp only [if_pos hdepth, reduceCtorEq, false_iff, not_and]
    intro hle
    exact absurd hdepth (Nat.not_lt.mpr hle)
  · rw [if_neg hdepth, checkConditions_eq_ok_iff]
    exact ⟨fun h ↦ ⟨Nat.not_lt.mp hdepth, h⟩, And.right⟩

/-- What some text spells passes the check under limits that allow as many tokens. -/
theorem check_of_read {origin : Limits} {s : String} (h : read origin s = .ok f)
    (hle : origin.maxTokens ≤ limits.maxTokens) : f.check limits = .ok () := by
  obtain ⟨hf, hcount, -⟩ := fits_of_read h
  rw [check_eq_ok_iff]
  exact ⟨f.depth_le_size.trans (f.size_le_tokenCount.trans (hcount.trans hle)),
    fun c hc ↦ (hf c hc).checked⟩

/-- A formula that passes the check can be said exactly if its fields are names and its numbers are
finite: its texts have no quote already. -/
theorem sayable_iff_of_check (h : f.check limits = .ok ()) :
    f.Sayable ↔ ∀ c ∈ f.conditions, IsName c.field.toList ∧ c.literal.IsFinite := by
  have hchecked := (check_eq_ok_iff.mp h).2
  refine forall₂_congr fun c hc ↦ ?_
  rw [← whole_identifier_iff, ← (hchecked c hc).sayable_iff]
  exact ⟨fun h ↦ ⟨h.field, h.literal⟩, fun h ↦ ⟨h.1, h.2⟩⟩

end Formula

end Criteria
