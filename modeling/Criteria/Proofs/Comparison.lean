import Criteria.Proofs.Decimal.Order
import Criteria.Proofs.Formula.Check
import Criteria.Proofs.Record.Decoded

/-!
The six comparisons of a value with a literal. A value that comes from JSON has a finite number or
none. Where it has one, it stands to a number as the fractions that the two stand for; where it has
none, or the literal is a text, it has no order to the literal, and its string form is not that of
any number.
-/

set_option autoImplicit false
set_option relaxedAutoImplicit false

namespace Criteria

/-! ### Numbers of values -/

namespace Value

variable {v : Value} {x n : Float}

theorem isFinite_of_number? (h : v.IsFinite) (hx : v.number? = some x) : x.isFinite = true := by
  cases v with
  | number y =>
    cases hx
    exact h
  | text s => exact Literal.isFinite_of_finiteNumeral? hx
  | flag b => cases hx
  | null => cases hx

theorem spelled_of_not_null (h : v.isNull = false) : v.spelled = .text v.write := by
  cases v with
  | null => cases h
  | number | text | flag => rfl

/-- A value with the string form of a finite number has that number. -/
theorem number?_of_write_eq (h : v.IsFinite) (hnull : v.isNull = false)
    (hn : n.isFinite = true) (hwrite : v.write = Layout.plain.write n) : v.number? = some n := by
  have hspelled : v.spelled = (Value.number n).spelled := by
    rw [spelled_of_not_null hnull, hwrite]
    rfl
  calc v.number? = v.spelled.number? := (number?_spelled h).symm
    _ = (Value.number n).spelled.number? := by rw [hspelled]
    _ = some n := number?_spelled (v := .number n) hn

end Value

namespace Comparison

/-! ### Comparisons of fractions -/

/-- What each comparison says of two fractions. -/
def Relates : Comparison → ℚ → ℚ → Prop
  | .above, p, q => q < p
  | .below, p, q => p < q
  | .atLeast, p, q => q ≤ p
  | .atMost, p, q => p ≤ q
  | .equal, p, q => p = q
  | .different, p, q => p ≠ q

/-- Two finite numbers stand in a relation if their fractions do. -/
theorem ofNumbers_iff {x y : Float} (hx : x.isFinite = true) (hy : y.isFinite = true)
    (op : Comparison) :
    op.ofNumbers x y = true ↔ op.Relates (Binary64.value x) (Binary64.value y) := by
  cases op with
  | above => exact decide_eq_true_iff.trans (Binary64.lt_iff hy hx)
  | below => exact decide_eq_true_iff.trans (Binary64.lt_iff hx hy)
  | atLeast => exact decide_eq_true_iff.trans (Binary64.le_iff hy hx)
  | atMost => exact decide_eq_true_iff.trans (Binary64.le_iff hx hy)
  | equal => exact Binary64.beq_iff hx hy
  | different =>
    rw [ofNumbers, Relates, bne, Bool.not_eq_true', ← Bool.not_eq_true, Binary64.beq_iff hx hy]

theorem existsUnique_relates (p q : ℚ) :
    ∃! op, op ∈ [below, equal, above] ∧ op.Relates p q := by
  have hmembers (op : Comparison) :
      op ∈ [below, equal, above] ↔ op = below ∨ op = equal ∨ op = above := by simp
  rcases lt_trichotomy p q with hlt | heq | hgt
  · refine ⟨below, ⟨by simp, hlt⟩, ?_⟩
    rintro op ⟨hop, hrelates⟩
    obtain rfl | rfl | rfl := (hmembers op).mp hop
    · rfl
    · exact absurd hrelates hlt.ne
    · exact absurd hrelates hlt.asymm
  · refine ⟨equal, ⟨by simp, heq⟩, ?_⟩
    rintro op ⟨hop, hrelates⟩
    obtain rfl | rfl | rfl := (hmembers op).mp hop
    · exact absurd heq (ne_of_lt hrelates)
    · rfl
    · exact absurd heq (ne_of_gt hrelates)
  · refine ⟨above, ⟨by simp, hgt⟩, ?_⟩
    rintro op ⟨hop, hrelates⟩
    obtain rfl | rfl | rfl := (hmembers op).mp hop
    · exact absurd hrelates hgt.asymm
    · exact absurd hrelates hgt.ne'
    · rfl

/-! ### Comparisons of values -/

variable {v : Value}

theorem ofField_eq_ofValue (hnull : v.isNull = false) (op : Comparison) (l : Literal) :
    op.ofField (some v) l = op.ofValue v l := by
  rw [ofField, hnull, Bool.not_false, Bool.true_and]

theorem ofValue_number {n x : Float} (hx : v.number? = some x) (op : Comparison) :
    op.ofValue v (.number n) = op.ofNumbers x n := by
  rw [ofValue, hx]

theorem ofTexts_of_isOrdering {op : Comparison} (h : op.isOrdering = true) (s t : String) :
    op.ofTexts s t = false := by
  cases op with
  | equal | different => cases h
  | above | below | atLeast | atMost => rfl

theorem ofValue_different (v : Value) (l : Literal) :
    different.ofValue v l = !equal.ofValue v l := by
  cases l with
  | text s => rfl
  | number n =>
    rw [ofValue, ofValue]
    split <;> rfl

/-- A value without a number, or compared with a text, has no order to the literal. -/
theorem ofValue_of_isOrdering {l : Literal} (h : ∀ n, l = .number n → v.number? = none)
    {op : Comparison} (hop : op.isOrdering = true) : op.ofValue v l = false := by
  cases l with
  | text s => exact ofTexts_of_isOrdering hop _ _
  | number n =>
    rw [ofValue, h n rfl]
    exact ofTexts_of_isOrdering hop _ _

/-- A value without a number is not equal to any. -/
theorem equal_ofValue_number (h : v.IsFinite) (hnull : v.isNull = false) {n : Float}
    (hn : n.isFinite = true) :
    equal.ofValue v (.number n) = true ↔ ∃ x, v.number? = some x ∧ (x == n) = true := by
  cases hx : v.number? with
  | some x =>
    rw [ofValue_number hx]
    simp [ofNumbers]
  | none =>
    -- Texts are compared here, and one that is written as the number would spell it.
    rw [ofValue, hx]
    refine iff_of_false ?_ (by simp)
    intro heq
    have hnumber := Value.number?_of_write_eq h hnull hn (beq_iff_eq.mp heq)
    rw [hx] at hnumber
    cases hnumber

/-- The comparisons of a value from JSON, other than null, with a finite number or a text. To differ
is not to be equal. Where the value has a number, finite as it is, it is below, equal to or above
the number of the literal, in one of these ways only, as the fractions are that the two stand for.
In all other cases there is no order. And the value equals a number if it has an equal one, but
never by its string form. -/
theorem coherent (v : Value) (hv : v.IsDecoded) (hnull : v.isNull = false) (l : Literal)
    (hl : l.IsFinite) :
    different.ofField (some v) l = !equal.ofField (some v) l ∧
    (∀ n x, l = .number n → v.number? = some x →
      x.isFinite = true ∧
      (∀ op : Comparison, op.ofField (some v) l = true ↔
        op.Relates (Binary64.value x) (Binary64.value n)) ∧
      (∃! op, op ∈ [below, equal, above] ∧ op.ofField (some v) l = true) ∧
      atLeast.ofField (some v) l = (above.ofField (some v) l || equal.ofField (some v) l) ∧
      atMost.ofField (some v) l = (below.ofField (some v) l || equal.ofField (some v) l)) ∧
    ((∀ n, l = .number n → v.number? = none) →
      ∀ op : Comparison, op.isOrdering = true → op.ofField (some v) l = false) ∧
    ∀ n, l = .number n →
      (equal.ofField (some v) l = true ↔
        ∃ x, v.number? = some x ∧ Binary64.value x = Binary64.value n) ∧
      (v.number? = none → v.write ≠ Layout.plain.write n) := by
  have hfinite := hv.isFinite
  simp only [ofField_eq_ofValue hnull]
  refine ⟨ofValue_different v l, ?_, fun h op ↦ ofValue_of_isOrdering h, ?_⟩
  · rintro n x rfl hx
    have hxfinite := Value.isFinite_of_number? hfinite hx
    have hrelates (op : Comparison) :
        op.ofValue v (.number n) = true ↔ op.Relates (Binary64.value x) (Binary64.value n) := by
      rw [ofValue_number hx, ofNumbers_iff hxfinite hl]
    refine ⟨hxfinite, hrelates, ?_, ?_, ?_⟩
    · simp only [hrelates]
      exact existsUnique_relates _ _
    · rw [Bool.eq_iff_iff, Bool.or_eq_true, hrelates, hrelates, hrelates]
      exact le_iff_lt_or_eq.trans (or_congr Iff.rfl eq_comm)
    · rw [Bool.eq_iff_iff, Bool.or_eq_true, hrelates, hrelates, hrelates]
      exact le_iff_lt_or_eq
  · rintro n rfl
    constructor
    · rw [equal_ofValue_number hfinite hnull hl]
      refine exists_congr fun x ↦ and_congr_right fun hx ↦ ?_
      exact Binary64.beq_iff (Value.isFinite_of_number? hfinite hx) hl
    · intro hnone hwrite
      rw [Value.number?_of_write_eq hfinite hnull hl hwrite] at hnone
      cases hnone

/-- Two texts, of which one spells a number. -/
def twoTexts : Record :=
  ⟨[("count", .text "many"), ("age", .text " 35.50 ")]⟩

/-- A text between blanks is compared by the number that it spells, one that spells none has no
order. -/
theorem coherent_of_texts :
    (∃! op, op ∈ [below, equal, above] ∧
      op.ofField (some (.text " 35.50 ")) (.number 35.5) = true) ∧
    equal.ofField (some (.text " 35.50 ")) (.number 35.5) = true ∧
    (∀ op : Comparison, op.isOrdering = true →
      op.ofField (some (.text "many")) (.number 35.5) = false) ∧
    different.ofField (some (.text "many")) (.number 35.5) = true := by
  have hread : Record.ofText "\x7b\"age\":\" 35.50 \",\"count\":\"many\"\x7d" =
      .ok twoTexts := by cbv
  have hage : twoTexts.get? "age" = some (.text " 35.50 ") := rfl
  have hcount : twoTexts.get? "count" = some (.text "many") := rfl
  have hfinite : (Literal.number 35.5).IsFinite := by decide
  have hspelled : (Value.text " 35.50 ").number? = some 35.5 := by decide +kernel
  have hnone : (Value.text "many").number? = none := by decide +kernel
  obtain ⟨-, hnumber, -, hequal⟩ := coherent _ (.record hread hage) rfl _ hfinite
  obtain ⟨hdifferent, -, hordering, hunequal⟩ := coherent _ (.record hread hcount) rfl _ hfinite
  obtain ⟨-, -, honly, -⟩ := hnumber _ _ rfl hspelled
  refine ⟨honly, (hequal _ rfl).1.mpr ⟨_, hspelled, rfl⟩, hordering fun _ _ ↦ hnone, ?_⟩
  rw [hdifferent, Bool.not_eq_true', ← Bool.not_eq_true, (hunequal _ rfl).1]
  simp [hnone]

end Comparison

end Criteria
