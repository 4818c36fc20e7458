import Criteria.Proofs.Decimal.ReadBack

/-!
Runs of digits at the head of a text: what is taken of them, how the digits of a number begin, and
how large a number they spell.
-/

set_option autoImplicit false
set_option relaxedAutoImplicit false

namespace Criteria.Decimal

/-- A run of one class ends where the text goes on with something else. -/
theorem takeWhile_append_of_head {p : Char → Bool} {ds rest : List Char}
    (hds : ∀ c ∈ ds, p c = true) (hrest : ∀ c ∈ rest.head?, p c = false) :
    (ds ++ rest).takeWhile p = ds ∧ (ds ++ rest).dropWhile p = rest := by
  rw [List.takeWhile_append_of_pos hds, List.dropWhile_append_of_pos hds]
  cases rest with
  | nil => simp
  | cons c rest => simp [hrest c rfl]

/-- Only zero begins with a zero. -/
theorem head?_toDigits {n : Nat} (hn : n ≠ 0) : (Nat.toDigits 10 n).head? ≠ some '0' := by
  induction n using Nat.strongRecOn with
  | ind n ih =>
    by_cases hsmall : n < 10
    · rw [Nat.toDigits_of_lt_base hsmall]
      have hdigit : ∀ d < 10, d ≠ 0 → [Nat.digitChar d].head? ≠ some '0' := by decide
      exact hdigit n hsmall hn
    · rw [Nat.toDigits_of_base_le (by omega) (by omega),
        List.head?_append_of_ne_nil _ Nat.toDigits_ne_nil]
      exact ih (n / 10) (by omega) (by omega)

/-- Digits spell a number below the power of ten with as many zeros. -/
theorem ofDigits_lt {cs : List Char} (h : ∀ c ∈ cs, isAsciiDigit c = true) :
    ofDigits cs < 10 ^ cs.length := by
  induction cs using List.reverseRecOn with
  | nil => exact Nat.one_pos
  | append_singleton cs c ih =>
    rw [List.forall_mem_append, List.forall_mem_singleton] at h
    have hdigit : c.toNat ≤ 57 := by
      have hrange := h.2
      simp only [isAsciiDigit, Char.le_def, UInt32.le_iff_toNat_le, Bool.and_eq_true,
        decide_eq_true_eq] at hrange
      exact hrange.2
    have hzero : '0'.toNat = 48 := rfl
    have hfront := ih h.1
    rw [ofDigits_append, List.foldl_cons, List.foldl_nil, List.length_append,
      List.length_singleton, pow_succ, hzero]
    omega

end Criteria.Decimal
