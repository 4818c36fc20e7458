import Criteria.Proofs.Calendar
import Criteria.Proofs.Instant.Kept
import Criteria.Proofs.Text.Class

/-!
Moments read back from what is written of them. Each part of the text is read by the part of the
reader that is made for it, which leaves the rest to the next one; the date counts back to its day.
-/

set_option autoImplicit false
set_option relaxedAutoImplicit false

namespace Criteria.Instant

open Decimal (isAsciiDigit ofDigits)

/-! ### Padded numbers -/

theorem isAsciiDigit_of_mem_padded {width n : Nat} {c : Char} (h : c ∈ padded width n) :
    isAsciiDigit c = true := by
  rcases List.mem_append.mp h with hzero | hdigit
  · exact Decimal.isAsciiDigit_of_mem_zeros hzero
  · exact Decimal.isAsciiDigit_of_mem_toDigits hdigit

theorem ofDigits_padded (width n : Nat) : ofDigits (padded width n) = n :=
  (Decimal.ofDigits_zeros_append _ _).trans (Decimal.ofDigits_toDigits n)

theorem padded_ne_nil (width n : Nat) : padded width n ≠ [] := by
  simp [padded, Nat.toDigits_ne_nil]

theorem length_padded {width n : Nat} (hpos : 0 < width) (h : n < 10 ^ width) :
    (padded width n).length = width := by
  have hdigits : (Nat.toDigits 10 n).length ≤ width :=
    (Nat.length_toDigits_le_iff (by omega) hpos).mpr h
  simp only [padded, List.length_append, List.length_replicate]
  omega

/-! ### Parts -/

section

variable {α β : Type}

/-- What one part has read, and the rest, go on to the next one. -/
theorem run_bind_of_ok {p : Part α} {next : α → Part β} {cs rest : List Char} {a : α}
    (h : p.run cs = .ok (a, rest)) : (p >>= next).run cs = (next a).run rest := by
  rw [StateT.run_bind, h]
  rfl

end

theorem isBlank_of_isAsciiDigit {c : Char} (h : isAsciiDigit c = true) :
    Text.isBlank c = false :=
  Text.isBlank_eq_false_of_isWord (Text.isWord_of_isDigit (Decimal.isDigit_of_isAsciiDigit h))

theorem run_skipBlanks {cs : List Char} (h : ∀ c ∈ cs.head?, Text.isBlank c = false) :
    skipBlanks.run cs = .ok ((), cs) := by
  have hdrop : cs.dropWhile Text.isBlank = cs := by
    cases cs with
    | nil => rfl
    | cons c cs => exact List.dropWhile_cons_of_neg (by simp [h c rfl])
  change Except.ok ((), cs.dropWhile Text.isBlank) = _
  rw [hdrop]

theorem run_mark {c : Char} (hc : Text.isBlank c = false) (rest : List Char) :
    (mark c).run (c :: rest) = .ok ((), rest) := by
  rw [mark, run_bind_of_ok (run_skipBlanks (by simpa using hc))]
  change (if c = c then _ else _ : Part Unit).run (c :: rest) = _
  rw [if_pos rfl]
  rfl

theorem head?_padded_append (width n : Nat) (rest : List Char) :
    ∀ c ∈ (padded width n ++ rest).head?, isAsciiDigit c = true := by
  rw [List.head?_append_of_ne_nil _ (padded_ne_nil width n)]
  exact fun c hc ↦ isAsciiDigit_of_mem_padded (List.mem_of_mem_head? hc)

/-- A padded number is taken whole, if the digits end where it does. -/
theorem run_digits_padded {width most n : Nat} {rest : List Char}
    (hmost : (padded width n).length ≤ most)
    (hrest : ∀ c ∈ (rest.take (most - (padded width n).length)).head?, isAsciiDigit c = false) :
    (digits most).run (padded width n ++ rest) = .ok (n, rest) := by
  have hvalue := ofDigits_padded width n
  have hdigits : ∀ c ∈ padded width n, isAsciiDigit c = true :=
    fun _ ↦ isAsciiDigit_of_mem_padded
  obtain ⟨c, cs, hcs⟩ := List.exists_cons_of_ne_nil (padded_ne_nil width n)
  rw [hcs] at hvalue hdigits hmost hrest ⊢
  have htaken : ((c :: cs ++ rest).take most).takeWhile isAsciiDigit = c :: cs := by
    rw [List.take_append, List.take_of_length_le hmost]
    exact (Decimal.takeWhile_append_of_head hdigits hrest).1
  rw [List.cons_append, run_digits most (hdigits c List.mem_cons_self), ← List.cons_append, htaken,
    hvalue, List.drop_left]

theorem run_within {least most n : Nat} (hleast : least ≤ n) (hmost : n ≤ most) (hn : n < 100)
    (rest : List Char) : (within least most).run (padded 2 n ++ rest) = .ok (n, rest) := by
  have hlength : (padded 2 n).length = 2 := length_padded (by omega) hn
  have hdigits : (digits 2).run (padded 2 n ++ rest) = .ok (n, rest) :=
    run_digits_padded hlength.le (by simp [hlength])
  rw [within, run_bind_of_ok (run_skipBlanks fun c hc ↦
    isBlank_of_isAsciiDigit (head?_padded_append 2 n rest c hc)), run_bind_of_ok hdigits,
    if_pos ⟨hleast, hmost⟩]
  rfl

theorem run_signedYear_of_digit {n : Nat} {cs rest : List Char}
    (hhead : ∀ c ∈ cs.head?, isAsciiDigit c = true) (h : (digits 4).run cs = .ok (n, rest)) :
    signedYear.run cs = .ok ((n : Int), rest) := by
  rw [signedYear, StateT.run_bind, StateT.run_get, pure_bind]
  split
  · rename_i heq
    rw [show cs = _ from heq] at hhead
    exact absurd (hhead '-' rfl) (by decide)
  · rename_i heq
    rw [show cs = _ from heq] at hhead
    exact absurd (hhead '+' rfl) (by decide)
  · exact run_bind_of_ok h

/-- Behind a sign, all digits belong to the year. -/
theorem run_digits_year (n : Nat) (rest : List Char) :
    (digits (padded 4 n ++ '-' :: rest).length).run (padded 4 n ++ '-' :: rest) =
      .ok (n, '-' :: rest) := by
  refine run_digits_padded (by simp) ?_
  rw [List.length_append, List.length_cons, Nat.add_sub_cancel_left, List.take_succ_cons]
  rintro c ⟨⟩
  decide

theorem run_signedYear {y : Int} (rest : List Char) :
    signedYear.run (yearChars y ++ '-' :: rest) = .ok (y, '-' :: rest) := by
  unfold yearChars
  by_cases hplain : 0 ≤ y ∧ y ≤ 9999
  · have hlength : (padded 4 y.toNat).length = 4 := length_padded (by omega) (by omega)
    have hdigits : (digits 4).run (padded 4 y.toNat ++ '-' :: rest) = .ok (y.toNat, '-' :: rest) :=
      run_digits_padded hlength.le (by simp [hlength])
    rw [if_pos hplain, run_signedYear_of_digit (head?_padded_append 4 y.toNat _) hdigits]
    congr 2
    omega
  · rw [if_neg hplain, List.cons_append]
    by_cases hnegative : y < 0
    · rw [if_pos hnegative]
      change (do return -(← digits (padded 4 y.natAbs ++ '-' :: rest).length : Int) : Part Int).run
        (padded 4 y.natAbs ++ '-' :: rest) = _
      rw [run_bind_of_ok (run_digits_year y.natAbs rest)]
      change Except.ok (-(y.natAbs : Int), '-' :: rest) = _
      congr 2
      omega
    · rw [if_neg hnegative]
      change (do return (← digits (padded 4 y.natAbs ++ '-' :: rest).length : Int) : Part Int).run
        (padded 4 y.natAbs ++ '-' :: rest) = _
      rw [run_bind_of_ok (run_digits_year y.natAbs rest)]
      change Except.ok ((y.natAbs : Int), '-' :: rest) = _
      congr 2
      omega

theorem head?_yearChars (y : Int) (rest : List Char) :
    ∀ c ∈ (yearChars y ++ rest).head?, Text.isBlank c = false := by
  unfold yearChars
  split
  · exact fun c hc ↦ isBlank_of_isAsciiDigit (head?_padded_append 4 _ rest c hc)
  · split
    · rintro c ⟨⟩
      decide
    · rintro c ⟨⟩
      decide

/-- A year is read up to the mark that follows it. -/
theorem run_year {y : Int} (hleast : -(2 ^ 31) ≤ y) (hmost : y < 2 ^ 31) (rest : List Char) :
    year.run (yearChars y ++ '-' :: rest) = .ok (y, '-' :: rest) := by
  rw [year, run_bind_of_ok (run_skipBlanks (head?_yearChars y _)),
    run_bind_of_ok (run_signedYear rest)]
  exact congrArg (StateT.run · _) (if_pos ⟨hleast, hmost⟩)

theorem run_fraction_padded {width n : Nat} (hpos : 0 < width) (hwidth : width ≤ 9)
    (hn : n < 10 ^ width) :
    fraction.run ('.' :: (padded width n ++ ['Z'])) = .ok (n * 10 ^ (9 - width), ['Z']) := by
  have hlength : (padded width n).length = width := length_padded hpos hn
  have hdigits : (digits 9).run (padded width n ++ ['Z']) = .ok (n, ['Z']) := by
    refine run_digits_padded (hlength.trans_le hwidth) fun c hc ↦ ?_
    obtain rfl : c = 'Z' := by simpa using List.mem_of_mem_take (List.mem_of_mem_head? hc)
    decide
  rw [run_fraction_point, hdigits]
  change Except.ok (n * 10 ^ (9 - ((padded width n ++ ['Z']).length - 1)), ['Z']) = _
  rw [List.length_append, hlength]
  rfl

theorem run_fraction {n : Nat} (hn : n < 1000000000) :
    fraction.run (fractionChars n ++ ['Z']) = .ok (n, ['Z']) := by
  unfold fractionChars
  by_cases hzero : n = 0
  · rw [if_pos hzero, hzero]
    rfl
  · rw [if_neg hzero]
    by_cases hthree : n % 1000000 = 0
    · rw [if_pos hthree, List.cons_append,
        run_fraction_padded (by omega) (by omega) (show n / 1000000 < 10 ^ 3 by omega)]
      congr 2
      omega
    · rw [if_neg hthree]
      by_cases hsix : n % 1000 = 0
      · rw [if_pos hsix, List.cons_append,
          run_fraction_padded (by omega) (by omega) (show n / 1000 < 10 ^ 6 by omega)]
        congr 2
        omega
      · rw [if_neg hsix, List.cons_append,
          run_fraction_padded (by omega) le_rfl (show n < 10 ^ 9 by omega)]
        congr 2
        omega

theorem run_offset : offset.run ['Z'] = .ok (0, []) := by
  rfl

/-! ### Clocks -/

theorem year_bounds_of_isKept {t : Instant} (h : t.IsKept) :
    yearBounds.1 ≤ (Date.ofDays (t.seconds / 86400)).year ∧
      (Date.ofDays (t.seconds / 86400)).year ≤ yearBounds.2 := by
  have hfirst := h.first
  have hlast := h.last
  constructor
  · rw [Date.le_year_ofDays_iff]
    omega
  · by_contra hlater
    have hyear : yearBounds.2 + 1 ≤ (Date.ofDays (t.seconds / 86400)).year := by omega
    rw [Date.le_year_ofDays_iff] at hyear
    omega

/-- The date and the time that a clock in universal time shows name the moment. -/
theorem ofClock_of_isKept {t : Instant} (h : t.IsKept) :
    ofClock (Date.ofDays (t.seconds / 86400)) ((t.seconds % 86400).toNat / 3600)
      ((t.seconds % 86400).toNat / 60 % 60)
      ((t.seconds % 86400).toNat % 60 + t.nanos / 1000000000) (t.nanos % 1000000000) 0 =
        .ok t := by
  obtain ⟨hleast, hmost⟩ := year_bounds_of_isKept h
  have hnanos := h.nanos
  have hleap := h.leap
  -- The second is the sixtieth exactly inside a leap second.
  have hsixty : ((t.seconds % 86400).toNat % 60 + t.nanos / 1000000000) / 60 =
      t.nanos / 1000000000 := by
    omega
  have hseconds : t.seconds / 86400 * 86400 + ((t.seconds % 86400).toNat / 3600 : Nat) * 3600 +
      ((t.seconds % 86400).toNat / 60 % 60 : Nat) * 60 +
        ((t.seconds % 86400).toNat % 60 + t.nanos / 1000000000 - t.nanos / 1000000000 : Nat) - 0 =
          t.seconds := by
    omega
  have hdate : ¬(¬(Date.ofDays (t.seconds / 86400)).isValid = true ∨
      (Date.ofDays (t.seconds / 86400)).year < yearBounds.1 ∨
        yearBounds.2 < (Date.ofDays (t.seconds / 86400)).year ∨ 86400 ≤ (0 : Int).natAbs) := by
    simp only [Date.isValid_ofDays, not_true, false_or, not_or, not_lt]
    exact ⟨hleast, hmost, by decide⟩
  have hbounds : ¬(t.seconds < (⟨yearBounds.1, 1, 1⟩ : Date).toDays * 86400 ∨
      (⟨yearBounds.2 + 1, 1, 1⟩ : Date).toDays * 86400 ≤ t.seconds) := by
    rw [not_or, not_lt, not_le]
    exact ⟨h.first, h.last⟩
  simp only [ofClock, hsixty, Date.toDays_ofDays]
  rw [if_neg hdate, hseconds, if_neg hbounds, Nat.mod_add_div' t.nanos 1000000000]

/-- A moment for which dates are kept is read back from its text. -/
theorem read_write {t : Instant} (h : t.IsKept) : read t.write = .ok t := by
  obtain ⟨hleast, hmost⟩ := year_bounds_of_isKept h
  obtain ⟨hmonth, hmonth', hday, hday'⟩ :=
    Date.bounds_of_isValid (Date.isValid_ofDays (t.seconds / 86400))
  have hnanos := h.nanos
  have hleap := h.leap
  have hbounds : yearBounds = (-262143, 262142) := rfl
  rw [hbounds] at hleast hmost
  have hchars : t.chars = yearChars (Date.ofDays (t.seconds / 86400)).year ++
      '-' :: (padded 2 (Date.ofDays (t.seconds / 86400)).month ++
      '-' :: (padded 2 (Date.ofDays (t.seconds / 86400)).day ++
      'T' :: (padded 2 ((t.seconds % 86400).toNat / 3600) ++
      ':' :: (padded 2 ((t.seconds % 86400).toNat / 60 % 60) ++
      ':' :: (padded 2 ((t.seconds % 86400).toNat % 60 + t.nanos / 1000000000) ++
      (fractionChars (t.nanos % 1000000000) ++ ['Z'])))))) := by
    simp only [chars, List.append_assoc, List.cons_append]
  have hparts : parts.run t.chars = .ok (t, []) := by
    rw [hchars, parts, run_bind_of_ok (run_year (by omega) (by omega) _),
      run_bind_of_ok (run_mark (by decide) _),
      run_bind_of_ok (run_within hmonth hmonth' (by omega) _),
      run_bind_of_ok (run_mark (by decide) _),
      run_bind_of_ok (run_within hday hday' (by omega) _), StateT.run_bind, StateT.run_get,
      pure_bind]
    simp only [true_or, if_true]
    rw [run_bind_of_ok (a := ()) rfl,
      run_bind_of_ok (run_within (by omega) (by omega) (by omega) _),
      run_bind_of_ok (run_mark (by decide) _),
      run_bind_of_ok (run_within (by omega) (by omega) (by omega) _),
      run_bind_of_ok (run_mark (by decide) _),
      run_bind_of_ok (run_within (by omega) (by omega) (by omega) _),
      run_bind_of_ok (run_fraction (by omega)), run_bind_of_ok run_offset,
      run_bind_of_ok (run_skipBlanks (by simp)), StateT.run_bind, StateT.run_get, pure_bind]
    simp only [if_true]
    rw [ofClock_of_isKept h]
    rfl
  rw [read, write, String.toList_ofList, hparts]
  rfl

end Criteria.Instant
