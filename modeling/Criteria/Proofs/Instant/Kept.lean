import Criteria.Instant.Read
import Criteria.Proofs.Decimal.Digits

/-!
Moments for which dates are kept. They lie between the first and the last year, and a leap second is
the last one of a minute. Whatever text is read as a moment, it is one of them.
-/

set_option autoImplicit false
set_option relaxedAutoImplicit false

namespace Criteria.Instant

/-- Whether dates are kept for the moment. Inside a leap second, the second before it has gone on
for more than its time; only the last second of a minute does. -/
structure IsKept (t : Instant) : Prop where
  first : (⟨yearBounds.1, 1, 1⟩ : Date).toDays * 86400 ≤ t.seconds
  last : t.seconds < (⟨yearBounds.2 + 1, 1, 1⟩ : Date).toDays * 86400
  nanos : t.nanos < 2000000000
  leap : 1000000000 ≤ t.nanos → t.seconds % 60 = 59

theorem isKept_iff {t : Instant} :
    t.IsKept ↔ (⟨yearBounds.1, 1, 1⟩ : Date).toDays * 86400 ≤ t.seconds ∧
      t.seconds < (⟨yearBounds.2 + 1, 1, 1⟩ : Date).toDays * 86400 ∧ t.nanos < 2000000000 ∧
        (1000000000 ≤ t.nanos → t.seconds % 60 = 59) :=
  ⟨fun h ↦ ⟨h.first, h.last, h.nanos, h.leap⟩, fun ⟨h₁, h₂, h₃, h₄⟩ ↦ ⟨h₁, h₂, h₃, h₄⟩⟩

instance (t : Instant) : Decidable t.IsKept :=
  decidable_of_iff _ isKept_iff.symm

/-! ### Parts -/

/-- Whatever the part reads, it has the property. -/
def Part.Yields {α : Type} (p : Part α) (P : α → Prop) : Prop :=
  ∀ cs a rest, p.run cs = .ok (a, rest) → P a

section

variable {α β : Type} {P : α → Prop} {Q : β → Prop}

theorem yields_trivial (p : Part α) : p.Yields fun _ ↦ True :=
  fun _ _ _ _ ↦ trivial

theorem yields_pure {a : α} (h : P a) : (pure a : Part α).Yields P := by
  rintro cs b rest ⟨⟩
  exact h

theorem yields_throw (fault : InstantFault) : (throw fault : Part α).Yields P := by
  intro cs a rest h
  cases h

theorem yields_lift {e : Except InstantFault α} (h : ∀ a, e = .ok a → P a) :
    (liftM e : Part α).Yields P := by
  intro cs a rest hrun
  cases e with
  | error fault => cases hrun
  | ok b =>
    cases hrun
    exact h a rfl

/-- What a part reads, it may hand on to the next one. -/
theorem yields_bind {p : Part α} {next : α → Part β} (hp : p.Yields P)
    (hnext : ∀ a, P a → (next a).Yields Q) : (p >>= next).Yields Q := by
  intro cs b rest h
  cases hrun : p.run cs with
  | error fault =>
    rw [StateT.run_bind, hrun] at h
    cases h
  | ok result =>
    obtain ⟨a, mid⟩ := result
    rw [StateT.run_bind, hrun] at h
    exact hnext a (hp cs a mid hrun) mid b rest h

theorem yields_throw_bind {fault : InstantFault} (next : α → Part β) :
    ((throw fault : Part α) >>= next).Yields Q := by
  intro cs b rest h
  cases h

theorem yields_of_next {p : Part α} {next : α → Part β} (h : ∀ a, (next a).Yields Q) :
    (p >>= next).Yields Q :=
  yields_bind (yields_trivial p) fun a _ ↦ h a

end

theorem within_yields (least most : Nat) : (within least most).Yields fun n ↦ n ≤ most := by
  refine yields_of_next fun _ ↦ yields_of_next fun n ↦ ?_
  by_cases h : least ≤ n ∧ n ≤ most
  · rw [if_pos h]
    exact yields_pure h.2
  · rw [if_neg h]
    exact yields_throw _

/-- The digits that are taken from the head of a text. -/
theorem run_digits (width : Nat) {c : Char} (hc : Decimal.isAsciiDigit c = true)
    (cs : List Char) :
    (digits width).run (c :: cs) =
      .ok (Decimal.ofDigits (((c :: cs).take width).takeWhile Decimal.isAsciiDigit),
        (c :: cs).drop (((c :: cs).take width).takeWhile Decimal.isAsciiDigit).length) := by
  change (if Decimal.isAsciiDigit c = true then _ else _ : Part Nat).run (c :: cs) = _
  rw [if_pos hc]
  rfl

theorem run_digits_of_other (width : Nat) {c : Char} (hc : ¬Decimal.isAsciiDigit c = true)
    (cs : List Char) : (digits width).run (c :: cs) = .error .invalid := by
  change (if Decimal.isAsciiDigit c = true then _ else _ : Part Nat).run (c :: cs) = _
  rw [if_neg hc]
  rfl

/-- As many digits are taken as the text gets shorter, and no more than are asked for. -/
theorem digits_bounds {width n : Nat} {cs rest : List Char}
    (h : (digits width).run cs = .ok (n, rest)) :
    cs.length - rest.length ≤ width ∧ n < 10 ^ (cs.length - rest.length) := by
  cases cs with
  | nil => cases h
  | cons c cs =>
    by_cases hc : Decimal.isAsciiDigit c = true
    · have htaken : ∀ d ∈ ((c :: cs).take width).takeWhile Decimal.isAsciiDigit,
          Decimal.isAsciiDigit d = true := fun d hd ↦ List.mem_takeWhile_imp hd
      have hlength := (List.takeWhile_prefix (l := (c :: cs).take width)
        Decimal.isAsciiDigit).length_le
      rw [List.length_take] at hlength
      rw [run_digits width hc] at h
      generalize ((c :: cs).take width).takeWhile Decimal.isAsciiDigit = taken
        at h htaken hlength
      cases h
      have hused : (c :: cs).length - ((c :: cs).drop taken.length).length = taken.length := by
        rw [List.length_drop]
        omega
      rw [hused]
      exact ⟨by omega, Decimal.ofDigits_lt htaken⟩
    · rw [run_digits_of_other width hc] at h
      cases h

theorem run_fraction_point (cs : List Char) :
    fraction.run ('.' :: cs) = (do
      let (n, rest) ← (digits 9).run cs
      return (n * Nat.pow 10 (9 - (cs.length - rest.length)),
        rest.dropWhile Decimal.isAsciiDigit)) := by
  rfl

theorem run_fraction_of_head? {cs : List Char} (h : cs.head? ≠ some '.') :
    fraction.run cs = .ok (0, cs) := by
  rw [fraction, StateT.run_bind, StateT.run_get, pure_bind]
  split
  · rename_i heq
    rw [show cs = _ from heq] at h
    exact absurd rfl h
  · rfl

theorem fraction_yields : fraction.Yields fun nanos ↦ nanos < 1000000000 := by
  intro cs nanos rest h
  by_cases hpoint : cs.head? = some '.'
  · obtain ⟨tail, rfl⟩ := List.head?_eq_some_iff.mp hpoint
    rw [run_fraction_point] at h
    cases hrun : (digits 9).run tail with
    | error fault =>
      rw [hrun] at h
      cases h
    | ok result =>
      obtain ⟨n, after⟩ := result
      obtain ⟨hused, hlt⟩ := digits_bounds hrun
      rw [hrun] at h
      cases h
      generalize tail.length - after.length = used at hused hlt
      calc n * Nat.pow 10 (9 - used) < 10 ^ used * 10 ^ (9 - used) :=
            Nat.mul_lt_mul_of_pos_right hlt (Nat.pow_pos (by omega))
        _ = 1000000000 := by rw [← pow_add, Nat.add_sub_cancel' hused]; rfl
  · rw [run_fraction_of_head? hpoint] at h
    cases h
    exact Nat.zero_lt_succ _

theorem signedOffset_yields (negative : Bool) :
    (signedOffset negative).Yields fun ahead ↦ ahead % 60 = 0 := by
  refine yields_of_next fun (h, k) ↦ yields_of_next fun _ ↦ yields_of_next fun (m, n) ↦ ?_
  by_cases hm : 6 ≤ m
  · simp only [if_pos hm]
    exact yields_throw_bind _
  · simp only [if_neg hm]
    refine yields_pure ?_
    cases negative <;> simp <;> omega

theorem offset_yields : offset.Yields fun ahead ↦ ahead % 60 = 0 := by
  refine yields_of_next fun _ ↦ yields_of_next fun cs ↦ ?_
  by_cases hname : (cs.take 3).map Char.toLower = ['u', 't', 'c']
  · rw [if_pos hname]
    exact yields_of_next fun _ ↦ yields_pure rfl
  · rw [if_neg hname]
    cases cs with
    | nil => exact yields_throw _
    | cons c rest =>
      refine yields_of_next fun _ ↦ ?_
      split
      · exact yields_pure rfl
      · split
        · exact signedOffset_yields false
        · split
          · exact signedOffset_yields true
          · exact yields_throw _

theorem isKept_of_ofClock {date : Date} {hour minute second nanos : Nat} {ahead : Int}
    {t : Instant} (hsecond : second ≤ 60) (hnanos : nanos < 1000000000) (hahead : ahead % 60 = 0)
    (h : ofClock date hour minute second nanos ahead = .ok t) : t.IsKept := by
  simp only [ofClock] at h
  split at h
  · cases h
  · split at h
    · cases h
    · rename_i hbounds
      cases h
      rw [not_or, not_lt, not_le] at hbounds
      refine ⟨hbounds.1, hbounds.2, ?_, ?_⟩
      · simp only
        omega
      · simp only
        intro hleap
        omega

theorem parts_yields : parts.Yields IsKept := by
  refine yields_of_next fun y ↦ yields_of_next fun _ ↦ yields_of_next fun month ↦
    yields_of_next fun _ ↦ yields_of_next fun day ↦ yields_of_next fun cs ↦ ?_
  cases cs with
  | nil => exact yields_throw_bind _
  | cons c rest =>
    simp only
    split
    · refine yields_of_next fun _ ↦ yields_of_next fun hour ↦ yields_of_next fun _ ↦
        yields_of_next fun minute ↦ yields_of_next fun _ ↦ ?_
      refine yields_bind (within_yields 0 60) fun second hsecond ↦ ?_
      refine yields_bind fraction_yields fun nanos hnanos ↦ ?_
      refine yields_bind offset_yields fun ahead hahead ↦ ?_
      refine yields_of_next fun _ ↦ yields_of_next fun cs ↦ ?_
      split
      · exact yields_lift fun _ ↦ isKept_of_ofClock hsecond hnanos hahead
      · exact yields_throw_bind _
    · exact yields_throw_bind _

/-- Only moments for which dates are kept are read. -/
theorem isKept_of_read {s : String} {t : Instant} (h : read s = .ok t) : t.IsKept := by
  unfold read at h
  cases hrun : parts.run s.toList with
  | error fault =>
    rw [hrun] at h
    cases h
  | ok result =>
    rw [hrun] at h
    cases h
    exact parts_yields _ _ _ hrun

end Criteria.Instant
