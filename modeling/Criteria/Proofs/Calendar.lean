import Criteria.Calendar
import Mathlib

/-!
Days and dates name each other. A day falls into the last year that begins no later, the lengths of
the months split the year, and so the date of a day is valid and counts back to that day.
-/

set_option autoImplicit false
set_option relaxedAutoImplicit false

namespace Criteria.Date

/-! ### Years -/

theorem daysBefore_succ (year : Int) :
    daysBefore (year + 1) = daysBefore year + if isLeap year then 366 else 365 := by
  have hleap : isLeap year = true ↔ year % 4 = 0 ∧ (year % 100 ≠ 0 ∨ year % 400 = 0) := by
    simp [isLeap]
  unfold daysBefore
  split <;> rename_i h
  · have hyear := hleap.mp h
    omega
  · have hyear := mt hleap.mpr h
    omega

theorem daysBefore_mono {a b : Int} (h : a ≤ b) : daysBefore a ≤ daysBefore b := by
  unfold daysBefore
  omega

/-- A day lies between the first days of its year and the next one. -/
theorem yearOf_spec (n : Int) : daysBefore (yearOf n) ≤ n ∧ n < daysBefore (yearOf n + 1) := by
  -- The quotient lags behind the leap days by less than a year, or is ahead of them by less.
  obtain ⟨hleast, hmost⟩ : daysBefore (400 * n / 146097) ≤ n ∧
      n < daysBefore (400 * n / 146097 + 1 + 1 + 1) := by
    unfold daysBefore
    omega
  rw [yearOf]
  generalize 400 * n / 146097 = quotient at hleast hmost
  by_cases hbefore : n < daysBefore (quotient + 1)
  · rw [if_pos hbefore, Int.add_sub_cancel]
    exact ⟨hleast, hbefore⟩
  · rw [if_neg hbefore]
    by_cases hafter : daysBefore (quotient + 1 + 1) ≤ n
    · rw [if_pos hafter]
      exact ⟨hafter, hmost⟩
    · rw [if_neg hafter]
      exact ⟨not_lt.mp hbefore, not_le.mp hafter⟩

/-- The year of a day is the last one that begins no later. -/
theorem le_yearOf_iff {year n : Int} : year ≤ yearOf n ↔ daysBefore year ≤ n := by
  obtain ⟨hfirst, hnext⟩ := yearOf_spec n
  constructor
  · intro h
    exact (daysBefore_mono h).trans hfirst
  · intro h
    by_contra hlater
    have hafter : daysBefore (yearOf n + 1) ≤ daysBefore year := daysBefore_mono (by omega)
    omega

/-! ### Months -/

theorem sum_monthLengths (year : Int) :
    ((monthLengths year).sum : Int) = if isLeap year then 366 else 365 := by
  unfold monthLengths
  cases isLeap year <;> rfl

/-- A day that the months hold falls into one of them. -/
theorem exists_monthDay (lengths : List Nat) (n month : Nat) (h : n < lengths.sum) :
    ∃ front length back day, lengths = front ++ length :: back ∧ n = front.sum + day ∧
      day < length ∧ monthDay month n lengths = (month + front.length, day + 1) := by
  induction lengths generalizing n month with
  | nil => exact absurd h (Nat.not_lt_zero n)
  | cons length lengths ih =>
    by_cases hn : n < length
    · exact ⟨[], length, lengths, n, rfl, by simp, hn, by rw [monthDay, if_pos hn]; rfl⟩
    · rw [List.sum_cons] at h
      obtain ⟨front, next, back, day, rfl, hday, hlt, hsame⟩ :=
        ih (n - length) (month + 1) (by omega)
      refine ⟨length :: front, next, back, day, rfl, ?_, hlt, ?_⟩
      · rw [List.sum_cons]
        omega
      · rw [monthDay, if_neg hn, hsame, List.length_cons]
        congr 1
        omega

/-! ### Dates -/

theorem foldr_add (lengths : List Nat) (n : Nat) :
    lengths.foldr (· + ·) n = lengths.sum + n := by
  induction lengths with
  | nil => simp
  | cons length lengths ih => rw [List.foldr_cons, ih, List.sum_cons, Nat.add_assoc]

/-- The date of a day is one of the calendar. -/
theorem exists_ofDays (days : Int) :
    ∃ front length back day, monthLengths (ofDays days).year = front ++ length :: back ∧
      day < length ∧ (ofDays days).month = front.length + 1 ∧ (ofDays days).day = day + 1 ∧
        daysBefore (ofDays days).year + (front.sum + day : Nat) = days + epoch := by
  obtain ⟨hfirst, hnext⟩ := yearOf_spec (days + epoch)
  have hyear : (ofDays days).year = yearOf (days + epoch) := rfl
  rw [daysBefore_succ, ← sum_monthLengths] at hnext
  obtain ⟨front, length, back, day, hlengths, hday, hlt, hmonth⟩ :=
    exists_monthDay (monthLengths (yearOf (days + epoch)))
      (days + epoch - daysBefore (yearOf (days + epoch))).toNat 1 (by omega)
  have hdate : ((ofDays days).month, (ofDays days).day) = (1 + front.length, day + 1) := hmonth
  rw [Prod.mk.injEq] at hdate
  refine ⟨front, length, back, day, hlengths, hlt, ?_, hdate.2, ?_⟩
  · omega
  · rw [hyear]
    omega

theorem isValid_ofDays (days : Int) : (ofDays days).isValid = true := by
  obtain ⟨front, length, back, day, hlengths, hlt, hmonth, hday, -⟩ := exists_ofDays days
  have hlength : (monthLengths (ofDays days).year)[front.length]? = some length := by
    rw [hlengths, List.getElem?_append_right (Nat.le_refl _), Nat.sub_self]
    rfl
  rw [isValid, hmonth]
  simp only [hlength, hday, Bool.and_eq_true, decide_eq_true_eq]
  omega

/-- Days are counted back from their dates. -/
theorem toDays_ofDays (days : Int) : (ofDays days).toDays = days := by
  obtain ⟨front, length, back, day, hlengths, -, hmonth, hday, hcount⟩ := exists_ofDays days
  rw [toDays, hlengths, hmonth, hday, Nat.add_sub_cancel, List.take_left, foldr_add]
  omega

/-- A valid date has a month and a day that can be written with two digits. -/
theorem bounds_of_isValid {d : Date} (h : d.isValid = true) :
    1 ≤ d.month ∧ d.month ≤ 12 ∧ 1 ≤ d.day ∧ d.day ≤ 31 := by
  have hcount : (monthLengths d.year).length = 12 := rfl
  have hmost : ∀ length ∈ monthLengths d.year, length ≤ 31 := by
    unfold monthLengths
    cases isLeap d.year <;> decide
  unfold isValid at h
  split at h
  · exact absurd h Bool.false_ne_true
  · rename_i m hmonth
    split at h
    · exact absurd h Bool.false_ne_true
    · rename_i length hlength
      obtain ⟨hm, -⟩ := List.getElem?_eq_some_iff.mp hlength
      have hle := hmost length (List.mem_of_getElem? hlength)
      rw [Bool.and_eq_true, decide_eq_true_eq, decide_eq_true_eq] at h
      omega

/-- The date of a day lies in no earlier year, if the day comes no earlier than that year. -/
theorem le_year_ofDays_iff {year days : Int} :
    year ≤ (ofDays days).year ↔ (⟨year, 1, 1⟩ : Date).toDays ≤ days := by
  have hfirst : (⟨year, 1, 1⟩ : Date).toDays = daysBefore year - epoch := by
    change daysBefore year + (1 : Nat) - 1 - epoch = _
    omega
  rw [hfirst, show (ofDays days).year = yearOf (days + epoch) from rfl, le_yearOf_iff]
  omega

end Criteria.Date
