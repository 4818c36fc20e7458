import Mathlib

/-!
Computations of steps that may fail. The whole has a result only if each step has one, and what
every step keeps holds at the end.
-/

set_option autoImplicit false
set_option relaxedAutoImplicit false

namespace Criteria

variable {α β σ ε ε' : Type}

/-- A failed step makes the whole fail, and a step that succeeds is followed by the next. -/
theorem bind_eq_ok_iff {e : Except ε α} {next : α → Except ε β} {b : β} :
    (e >>= next) = .ok b ↔ ∃ a, e = .ok a ∧ next a = .ok b := by
  cases e with
  | error fault => simp [Bind.bind, Except.bind]
  | ok a => simp [Bind.bind, Except.bind]

theorem mapError_eq_ok_iff {e : Except ε α} {fault : ε → ε'} {a : α} :
    e.mapError fault = .ok a ↔ e = .ok a := by
  cases e <;> simp [Except.mapError]

theorem toOption_eq_some_iff {e : Except ε α} {a : α} : e.toOption = some a ↔ e = .ok a := by
  cases e <;> simp [Except.toOption]

theorem exists_ok_iff {e : Except ε α} : (∃ a, e = .ok a) ↔ e.toOption.isSome = true := by
  cases e <;> simp [Except.toOption]

theorem exists_error_iff {e : Except ε α} :
    (∃ fault, e = .error fault) ↔ e.toOption.isSome = false := by
  cases e <;> simp [Except.toOption]

/-- What holds at first, and after the step of each item if it held before, holds at the end. -/
theorem foldlM_induction_mem {step : σ → α → Except ε σ} {motive : σ → Prop} {l : List α}
    (hstep : ∀ s, ∀ a ∈ l, ∀ s', motive s → step s a = .ok s' → motive s') {s t : σ}
    (h : motive s) (hfold : l.foldlM step s = .ok t) : motive t := by
  induction l generalizing s with
  | nil =>
    cases hfold
    exact h
  | cons a l ih =>
    rw [List.foldlM_cons] at hfold
    obtain ⟨s', hs', hrest⟩ := bind_eq_ok_iff.mp hfold
    exact ih (fun s b hb ↦ hstep s b (List.mem_cons_of_mem a hb))
      (hstep s a List.mem_cons_self s' h hs') hrest

theorem foldlM_induction {step : σ → α → Except ε σ} {motive : σ → Prop}
    (hstep : ∀ s a s', motive s → step s a = .ok s' → motive s') {l : List α} {s t : σ}
    (h : motive s) (hfold : l.foldlM step s = .ok t) : motive t :=
  foldlM_induction_mem (fun s a _ s' ↦ hstep s a s') h hfold

end Criteria
