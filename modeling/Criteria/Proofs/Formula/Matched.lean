import Criteria.Formula.Explain
import Mathlib.Data.List.Basic

/-!
The conditions that hold. A formula joins what its conditions say of a record and never turns it
round, so a record that meets each condition that another one meets, meets the formula if that one
does. The grounds of a decision are the conditions that hold, from left to right. An explanation
shows besides how the fields of the conditions are written, and nothing else of a record.
-/

set_option autoImplicit false
set_option relaxedAutoImplicit false

namespace Criteria

theorem Connective.apply_mono {op : Connective} {p q p' q' : Bool} (hp : p = true → p' = true)
    (hq : q = true → q' = true) (h : op.apply p q = true) : op.apply p' q' = true := by
  cases op with
  | and =>
    obtain ⟨hleft, hright⟩ := Bool.and_eq_true_iff.mp h
    exact Bool.and_eq_true_iff.mpr ⟨hp hleft, hq hright⟩
  | or => exact Bool.or_eq_true_iff.mpr ((Bool.or_eq_true_iff.mp h).imp hp hq)

namespace Formula

open Explanation

variable {f : Formula} {r r' : Record}

theorem holds_mono (h : ∀ c ∈ f.conditions, c.holds r = true → c.holds r' = true)
    (hf : f.holds r = true) : f.holds r' = true := by
  induction f with
  | test c => exact h c List.mem_cons_self hf
  | join connective left right ihleft ihright =>
    rw [conditions, List.forall_mem_append] at h
    exact Connective.apply_mono (ihleft h.1) (ihright h.2) hf

/-- A decision hangs on the conditions alone. -/
theorem holds_congr (h : ∀ c ∈ f.conditions, c.holds r = c.holds r') :
    f.holds r = f.holds r' := by
  rw [Bool.eq_iff_iff]
  constructor
  · exact holds_mono fun c hc hholds ↦ by rwa [← h c hc]
  · exact holds_mono fun c hc hholds ↦ by rwa [h c hc]

theorem holds_eq_false (h : ∀ c ∈ f.conditions, c.holds r = false) : f.holds r = false := by
  induction f with
  | test c => exact h c List.mem_cons_self
  | join connective left right ihleft ihright =>
    rw [conditions, List.forall_mem_append] at h
    rw [holds, ihleft h.1, ihright h.2]
    cases connective <;> rfl

/-- The conditions that hold, from left to right. -/
def met (f : Formula) (r : Record) : List Condition :=
  f.conditions.filter fun c ↦ c.holds r

theorem mem_met {c : Condition} : c ∈ f.met r ↔ c ∈ f.conditions ∧ c.holds r = true :=
  List.mem_filter

theorem met_congr (h : ∀ c ∈ f.conditions, c.holds r = c.holds r') : f.met r = f.met r' :=
  List.filter_congr h

/-- The grounds are the written forms of the conditions that hold, with a trace and without. -/
theorem matched_explainAt (path : Option String) (f : Formula) :
    (f.explainAt path r).matched = (f.met r).map Condition.write := by
  induction f generalizing path with
  | test c => cases h : c.holds r <;> simp [explainAt, met, conditions, h]
  | join connective left right ihleft ihright =>
    simp [explainAt, met, conditions, ihleft, ihright]

theorem matched_explain (tracing : Bool) :
    (f.explain tracing r).matched = (f.met r).map Condition.write :=
  matched_explainAt _ f

theorem testLine_congr {v v' : Option Value} (h : shown v = shown v') (c : Condition)
    (holds : Bool) : testLine c v holds = testLine c v' holds := by
  funext path
  rw [testLine, testLine, h]

/-- An explanation hangs on the conditions, and on how the values of their fields are shown. -/
theorem explainAt_congr (h : ∀ c ∈ f.conditions, c.holds r = c.holds r' ∧
      shown (r.get? c.field) = shown (r'.get? c.field)) (path : Option String) :
    f.explainAt path r = f.explainAt path r' := by
  induction f generalizing path with
  | test c =>
    obtain ⟨hholds, hshown⟩ := h c List.mem_cons_self
    simp only [explainAt, hholds, testLine_congr hshown]
  | join connective left right ihleft ihright =>
    rw [conditions, List.forall_mem_append] at h
    simp only [explainAt, ihleft h.1, ihright h.2]

theorem explain_congr (h : ∀ c ∈ f.conditions, c.holds r = c.holds r' ∧
      shown (r.get? c.field) = shown (r'.get? c.field)) (tracing : Bool) :
    f.explain tracing r = f.explain tracing r' :=
  explainAt_congr h _

end Formula

end Criteria
