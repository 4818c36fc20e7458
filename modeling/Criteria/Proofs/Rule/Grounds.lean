import Criteria.Proofs.Formula.Matched
import Criteria.Proofs.Rule.Cache

/-!
The grounds of a decision as rule texts. A condition that was read from a rule text is read back
from its written form, under the same limits, and no two conditions are written alike. So the
grounds tell which conditions hold, and thereby how the decision went.
-/

set_option autoImplicit false
set_option relaxedAutoImplicit false

namespace Criteria

namespace Formula

variable {limits : Limits} {s : String} {f : Formula} {c d : Condition} {r : Record}

theorem three_le_tokenCount (f : Formula) : 3 ≤ f.tokenCount := by
  induction f with
  | test c => exact Nat.le_refl 3
  | join connective left right ihleft ihright =>
    rw [tokenCount]
    omega

/-- A condition that was read among others can be read on its own, under the same limits. -/
theorem read_write_condition (h : read limits s = .ok f) (hc : c ∈ f.conditions) :
    read limits c.write = .ok (.test c) := by
  obtain ⟨hf, hcount, -⟩ := fits_of_read h
  exact read_write_iff.mpr
    ⟨sayable_test.mpr (hf c hc), f.three_le_tokenCount.trans hcount, Nat.zero_le _⟩

/-- No two conditions that were read are written alike. -/
theorem eq_of_write_eq (h : read limits s = .ok f) (hc : c ∈ f.conditions) (hd : d ∈ f.conditions)
    (hsame : c.write = d.write) : c = d := by
  have hread := read_write_condition h hc
  rw [hsame, read_write_condition h hd] at hread
  cases hread
  rfl

theorem mem_matched_iff {tracing : Bool} {text : String} :
    text ∈ (f.explain tracing r).matched ↔
      ∃ c ∈ f.conditions, c.holds r = true ∧ c.write = text := by
  rw [matched_explain, List.mem_map]
  simp only [mem_met, and_assoc]

/-- The grounds have the written form of a condition that was read exactly if it holds. -/
theorem write_mem_matched_iff (h : read limits s = .ok f) (tracing : Bool)
    (hc : c ∈ f.conditions) :
    c.write ∈ (f.explain tracing r).matched ↔ c.holds r = true := by
  rw [mem_matched_iff]
  constructor
  · rintro ⟨d, hd, hholds, hsame⟩
    rwa [eq_of_write_eq h hc hd hsame.symm]
  · exact fun hholds ↦ ⟨c, hc, hholds, rfl⟩

end Formula

namespace Compiler

/-- The grounds explain the decision, where a rule was made ready from its text. Each of the grounds
is a rule text that the same limits allow, and says a single condition, which holds. And two records
for which the grounds have the same texts, in whatever order and however often, are decided
alike. -/
theorem grounds_explain_decision (k k' : Compiler) (rule : Rule) (c : Compiled)
    (hplain : rule.formula = none) (h : k.compile rule = .ok (c, k')) :
    (∀ (tracing : Bool) (r : Record), ∀ text ∈ (c.explain tracing r).matched,
      ∃ d : Condition, Formula.read k.limits text = .ok (.test d) ∧
        (Formula.test d).holds r = true) ∧
    ∀ (tracing tracing' : Bool) (r r' : Record),
      (∀ text, text ∈ (c.explain tracing r).matched ↔ text ∈ (c.explain tracing' r').matched) →
        (c.explain tracing r).holds = (c.explain tracing' r').holds := by
  have hread : Formula.read k.limits rule.text = .ok c.formula := by
    have hself : rule.uncached = rule := by rw [Rule.uncached, ← hplain]
    rw [← hself] at h
    exact read_of_compile_uncached h
  constructor
  · intro tracing r text htext
    obtain ⟨d, hd, hholds, rfl⟩ := Formula.mem_matched_iff.mp htext
    exact ⟨d, Formula.read_write_condition hread hd, hholds⟩
  · intro tracing tracing' r r' hsame
    rw [Compiled.explain, Compiled.explain, Formula.holds_explain, Formula.holds_explain]
    refine Formula.holds_congr fun d hd ↦ ?_
    rw [Bool.eq_iff_iff, ← Formula.write_mem_matched_iff hread tracing hd,
      ← Formula.write_mem_matched_iff hread tracing' hd]
    exact hsame d.write

/-- The digits of a number, and the same digits as a text, are different conditions. -/
def thirty : Rule :=
  ⟨"thirty", "a = 30 OR (a = '30' AND b >= -0)", "", none, ⟨0, 0⟩, ⟨0, 0⟩⟩

/-- Two records that meet the first condition alone. -/
theorem grounds_explain_decision_of_thirty :
    ∃ c k', (ofLimits ⟨13, 1⟩).compile thirty = .ok (c, k') ∧
      (c.explain true ⟨[("a", .text "30.0")]⟩).matched = ["a = 30"] ∧
      (∃ d, Formula.read ⟨13, 1⟩ "a = 30" = .ok (.test d) ∧
        (Formula.test d).holds ⟨[("a", .text "30.0")]⟩ = true) ∧
      (c.explain true ⟨[("a", .text "30.0")]⟩).holds =
        (c.explain false ⟨[("a", .text " 30"), ("b", .null)]⟩).holds := by
  obtain ⟨f, hread⟩ : ∃ f, Formula.read ⟨13, 1⟩ thirty.text = .ok f :=
    ⟨_, Formula.read_eq_ok_get _ _ (by decide +kernel)⟩
  have hcompile : (ofLimits ⟨13, 1⟩).compile thirty =
      .ok ((ofLimits ⟨13, 1⟩).accepted thirty f) := by
    rw [show thirty = thirty.uncached from rfl, compile_uncached]
    exact congrArg _ hread
  have hmatched : (Formula.read ⟨13, 1⟩ thirty.text).toOption.map (fun f ↦
      ((f.explain true ⟨[("a", .text "30.0")]⟩).matched,
        (f.explain false ⟨[("a", .text " 30"), ("b", .null)]⟩).matched)) =
      some (["a = 30"], ["a = 30"]) := by
    decide +kernel
  rw [hread] at hmatched
  obtain ⟨hfirst, hsecond⟩ := Prod.mk.inj (Option.some.inj hmatched)
  obtain ⟨htexts, hsame⟩ := grounds_explain_decision _ _ thirty _ rfl hcompile
  refine ⟨_, _, hcompile, hfirst, htexts true _ _ ?_, hsame _ _ _ _ fun text ↦ ?_⟩
  · exact hfirst ▸ List.mem_singleton_self _
  · exact Iff.of_eq (congrArg _ (hfirst.trans hsecond.symm))

end Compiler

end Criteria
