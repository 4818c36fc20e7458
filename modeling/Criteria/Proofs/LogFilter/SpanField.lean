import Criteria.LogFilter.SpanField
import Criteria.Proofs.Decimal.Digits
import Criteria.Proofs.Decimal.Order
import Criteria.Proofs.Json.Number
import Criteria.Proofs.Literal

/-!
Fields of spans read back from what is written of them, name and value. A value is written as it is
read, unless it looks like a value of another kind: a whole number is written without its point, and
a text that looks like a number is no pattern.
-/

set_option autoImplicit false
set_option relaxedAutoImplicit false

namespace Criteria

open Decimal

/-! ### Numbers as texts -/

section Numbers

variable {n : Nat}

theorem all_isAsciiDigit_toDigits (n : Nat) : (Nat.toDigits 10 n).all isAsciiDigit = true :=
  List.all_eq_true.mpr fun _ ↦ isAsciiDigit_of_mem_toDigits

theorem natural?_toDigits (h : n < 2 ^ 64) : natural? (Nat.toDigits 10 n) = some n := by
  have hdigits := all_isAsciiDigit_toDigits n
  have hvalue := ofDigits_toDigits n
  obtain ⟨c, rest, hcs⟩ := List.exists_cons_of_ne_nil (Nat.toDigits_ne_nil (b := 10) (n := n))
  rw [hcs] at hdigits hvalue ⊢
  have hplus : c ≠ '+' := by
    rintro rfl
    exact absurd hdigits (by simp [show isAsciiDigit '+' = false by decide])
  simpa [natural?, hplus, hdigits, hvalue] using h

theorem natural?_minus (cs : List Char) : natural? ('-' :: cs) = none := by
  simp [natural?, show isAsciiDigit '-' = false by decide]

theorem integer?_minus (h : n ≤ 2 ^ 63) :
    integer? ('-' :: Nat.toDigits 10 n) = some (-(n : Int)) := by
  simp only [integer?, splitSign, ofDigits_toDigits, all_isAsciiDigit_toDigits]
  rw [if_neg (by simp [Nat.toDigits_ne_nil])]
  exact if_pos h

theorem chars_infinity (s : Float.Model.UnpackedFloat.Sign) :
    Layout.plain.chars (.ofModel (.pack (.infinity s))) =
      (match s with | .positive => [] | .negative => ['-']) ++ ['i', 'n', 'f'] := by
  cases s <;> decide +kernel

/-- A number is read from what is written of it, unless it is not-a-number. -/
theorem numeral?_chars {x : Float} (h : x.isNaN = false) :
    numeral? (Layout.plain.chars x) = some x := by
  rcases Binary64.isFinite_or_infinity h with hfinite | ⟨s, hs⟩
  · exact (Option.filter_eq_some_iff.mp (finiteNumeral?_chars hfinite)).1
  · rw [Binary64.eq_of_unpack_eq_infinity hs, chars_infinity]
    cases s <;> rfl

end Numbers

/-! ### Signs -/

/-- The signs that end a name or a value, or a whole directive. -/
def outerSigns : List Char :=
  ['=', '\x7d', ',']

theorem notMem_outerSigns {c : Char} (h : Text.isDigit c = true ∨ c = '.' ∨ c = '-') :
    c ∉ outerSigns := by
  intro hmem
  rcases h with h | rfl | rfl
  · have hsigns : outerSigns.any Text.isDigit = false := by decide
    exact absurd h (List.any_eq_false.mp hsigns c hmem)
  · exact absurd hmem (by decide)
  · exact absurd hmem (by decide)

theorem outerSigns_notMem_of_all {cs : List Char} (h : cs.all (· ∉ outerSigns) = true) :
    ∀ c ∈ cs, c ∉ outerSigns :=
  fun c hc ↦ of_decide_eq_true (List.all_eq_true.mp h c hc)

theorem outerSigns_notMem_toDigits {n : Nat} : ∀ c ∈ Nat.toDigits 10 n, c ∉ outerSigns :=
  fun _ hc ↦ notMem_outerSigns (.inl (isDigit_of_isAsciiDigit (isAsciiDigit_of_mem_toDigits hc)))

theorem outerSigns_notMem_chars {x : Float} (h : x.isNaN = false) :
    ∀ c ∈ Layout.plain.chars x, c ∉ outerSigns := by
  rcases Binary64.isFinite_or_infinity h with hfinite | ⟨s, hs⟩
  · have hbody {body : List Char} (hbody : Token.Unsigned body) : ∀ c ∈ body, c ∉ outerSigns :=
      fun c hc ↦ notMem_outerSigns ((hbody.isDigit_or_point c hc).imp_right .inl)
    rcases Literal.digits_chars hfinite with hdigits | ⟨digits, hchars, hdigits⟩
    · exact hbody hdigits
    · rw [hchars, List.forall_mem_cons]
      exact ⟨by decide, hbody hdigits⟩
  · rw [Binary64.eq_of_unpack_eq_infinity hs, chars_infinity]
    cases s <;> exact outerSigns_notMem_of_all (by decide)

namespace FieldValue

/-! ### Values -/

/-- The value is what its text looks like, and no sign in the text ends it. -/
def IsSpelled : FieldValue → Prop
  | .flag _ | .notANumber => True
  | .natural n => n < 2 ^ 64
  | .integer n => -2 ^ 63 ≤ n ∧ n < 0
  | .real x => x.isNaN = false ∧ natural? (Layout.plain.chars x) = none ∧
      integer? (Layout.plain.chars x) = none
  | .pattern s => Pattern.isValid s.toList = true ∧ (s ≠ "true" ∧ s ≠ "false" ∧
      natural? s.toList = none ∧ integer? s.toList = none ∧ numeral? s.toList = none) ∧
      ∀ c ∈ s.toList, c ∉ outerSigns

theorem read?_of_ne {cs : List Char} (htrue : cs ≠ "true".toList) (hfalse : cs ≠ "false".toList) :
    read? cs =
      match natural? cs, integer? cs, numeral? cs with
      | some n, _, _ => some (.natural n)
      | none, some n, _ => some (.integer n)
      | none, none, some x => some (if x.isNaN then .notANumber else .real x)
      | none, none, none =>
        if Pattern.isValid cs then some (.pattern (String.ofList cs)) else none :=
  (if_neg htrue).trans (if_neg hfalse)

theorem read?_write {v : FieldValue} (h : v.IsSpelled) : read? v.write.toList = some v := by
  cases v with
  | flag b => cases b <;> rfl
  | notANumber => rfl
  | natural n =>
    have hread := natural?_toDigits h
    have htext : (write (.natural n)).toList = Nat.toDigits 10 n := String.toList_ofList
    rw [htext, read?_of_ne, hread]
    all_goals
      intro heq
      rw [heq] at hread
      cases hread
  | integer n =>
    obtain ⟨hlow, hneg⟩ := h
    have hread := integer?_minus (n := n.natAbs) (by omega)
    have hnatural := natural?_minus (Nat.toDigits 10 n.natAbs)
    have hself : -(n.natAbs : Int) = n := by omega
    have htext : (write (.integer n)).toList = '-' :: Nat.toDigits 10 n.natAbs := by
      change (toString n).toList = _
      rw [Json.toList_toString, if_pos (by simpa using hneg)]
      rfl
    rw [hself] at hread
    rw [htext, read?_of_ne (by simp) (by simp), hnatural, hread]
  | real x =>
    obtain ⟨hnumber, hnatural, hinteger⟩ := h
    have hread := numeral?_chars hnumber
    have htext : (write (.real x)).toList = Layout.plain.chars x := String.toList_ofList
    rw [htext, read?_of_ne, hnatural, hinteger, hread]
    · exact congrArg some (if_neg (by rw [hnumber]; decide))
    all_goals
      intro heq
      rw [heq] at hread
      cases hread
  | pattern s =>
    obtain ⟨hvalid, ⟨htrue, hfalse, hnatural, hinteger, hnumeral⟩, -⟩ := h
    change read? s.toList = _
    rw [read?_of_ne (mt String.toList_inj.mp htrue) (mt String.toList_inj.mp hfalse), hnatural,
      hinteger, hnumeral]
    simp [hvalid]

theorem outerSigns_notMem_write {v : FieldValue} (h : v.IsSpelled) :
    ∀ c ∈ v.write.toList, c ∉ outerSigns := by
  cases v with
  | flag b => cases b <;> exact outerSigns_notMem_of_all (by decide)
  | notANumber => exact outerSigns_notMem_of_all (by decide)
  | natural n =>
    rw [show (write (.natural n)).toList = Nat.toDigits 10 n from String.toList_ofList]
    exact outerSigns_notMem_toDigits
  | integer n =>
    change ∀ c ∈ (toString n).toList, c ∉ outerSigns
    rw [Json.toList_toString, if_pos (by simpa using h.2), List.forall_mem_append,
      List.forall_mem_singleton]
    exact ⟨by decide, outerSigns_notMem_toDigits⟩
  | real x =>
    rw [show (write (.real x)).toList = Layout.plain.chars x from String.toList_ofList]
    exact outerSigns_notMem_chars h.1
  | pattern s => exact h.2.2

end FieldValue

namespace SpanField

/-! ### Fields -/

/-- The name and the value can be told apart, and there is something to read. -/
structure IsPlain (f : SpanField) : Prop where
  name : ∀ c ∈ f.name.toList, c ∉ outerSigns
  value : ∀ v ∈ f.value, v.IsSpelled
  write : f.write ≠ ""

theorem toList_write (f : SpanField) :
    f.write.toList = f.name.toList ++ (f.value.map fun v ↦ '=' :: v.write.toList).getD [] := by
  obtain ⟨name, value⟩ := f
  cases value with
  | none => simp [write]
  | some v => simp [write]

/-- Nothing in the text of a field ends it. -/
theorem ne_of_mem_write {f : SpanField} (h : f.IsPlain) :
    ∀ c ∈ f.write.toList, c ≠ '\x7d' ∧ c ≠ ',' := by
  have hfree {c : Char} (hc : c ∉ outerSigns) : c ≠ '\x7d' ∧ c ≠ ',' := by
    simp only [outerSigns, List.mem_cons, not_or] at hc
    exact ⟨hc.2.1, hc.2.2.1⟩
  obtain ⟨name, value⟩ := f
  rw [toList_write, List.forall_mem_append]
  refine ⟨fun c hc ↦ hfree (h.name c hc), ?_⟩
  cases value with
  | none => exact List.forall_mem_nil _
  | some v =>
    exact List.forall_mem_cons.mpr
      ⟨by decide, fun c hc ↦ hfree (FieldValue.outerSigns_notMem_write (h.value v rfl) c hc)⟩

/-- A field reads back from what is written of it. -/
theorem read?_write {f : SpanField} (h : f.IsPlain) : read? f.write.toList = some f := by
  have hfree {cs : List Char} (hcs : ∀ c ∈ cs, c ∉ outerSigns) :
      ∀ c ∈ cs, decide (c ≠ '=') = true := by
    intro c hc
    have hsign := hcs c hc
    simp only [outerSigns, List.mem_cons, not_or] at hsign
    exact decide_eq_true hsign.1
  obtain ⟨name, value⟩ := f
  rw [toList_write]
  cases value with
  | none =>
    have htake := List.takeWhile_eq_self_iff.mpr (hfree h.name)
    have hdrop := List.dropWhile_eq_nil_iff.mpr (hfree h.name)
    rw [Option.map_none, Option.getD_none, List.append_nil, read?, htake, hdrop,
      String.ofList_toList]
    rfl
  | some v =>
    have hvalue := FieldValue.outerSigns_notMem_write (h.value v rfl)
    have hends : ∀ c ∈ ('=' :: v.write.toList).head?, decide (c ≠ '=') = false := by simp
    obtain ⟨htake, hdrop⟩ := takeWhile_append_of_head (hfree h.name) hends
    rw [Option.map_some, Option.getD_some, read?, htake, hdrop, String.ofList_toList]
    dsimp only
    rw [List.takeWhile_eq_self_iff.mpr (hfree hvalue), FieldValue.read?_write (h.value v rfl)]
    rfl

end SpanField

end Criteria
