import Criteria.Proofs.Formula.Place
import Criteria.Proofs.Store.Entries
import Criteria.Service

/-!
The places that answers name. A text is validated as it was sent, but made or updated without the
blanks around it, so of a text that is refused these answers name different places.
-/

set_option autoImplicit false
set_option relaxedAutoImplicit false

namespace Criteria

/-- The place that an answer names, if it names one. -/
def Response.position? : Response → Option Nat
  | .failed fault => fault.position?
  | _ => none

namespace Service

variable {s : Service} {fresh : Fresh} {request : Request}

theorem handle_of_dispatch_error {fault : Fault} (h : s.dispatch fresh request = .error fault) :
    (s.handle fresh request).1 = .failed fault := by
  rw [handle, h]

/-- A text that is refused is refused by all requests that take one, with the same status and code.
Validating it names the place in the text as it was sent. Creating and updating leave out the blanks
before the text, and name the place that is left when their bytes are taken away; only a fault of
the text as a whole is told of its beginning by all three. Without such blanks the faults are the
same. -/
theorem position_leaves_out_leading_blanks (s : Service) (fresh : Fresh)
    (id text description : String) (newDescription : Option String) (fault : Fault)
    (hid : s.store.contains id = true)
    (hread : Formula.read s.store.limits text = .error fault) :
    ∃ inner p, (s.handle fresh (.validate text)).1 = .failed fault ∧
      (s.handle fresh (.create text description)).1 = .failed inner ∧
      (s.handle fresh (.update id text newDescription)).1 = .failed inner ∧
      fault.status = 400 ∧ inner.status = 400 ∧ inner.code = fault.code ∧
      inner.shift (Text.leadingBytes text) = fault ∧ inner.position? = some p ∧
      (fault.position? = some (Text.leadingBytes text + p) ∨ p = 0 ∧ fault.position? = some 0) ∧
      (Text.leadingBytes text = 0 → inner = fault) := by
  obtain ⟨c, hc⟩ := Store.contains_eq_true_iff.mp hid
  have hvalidate : s.dispatch fresh (.validate text) = .error fault := by
    rw [dispatch, hread]
    rfl
  have hstatus := Formula.status_of_read_error hread
  rw [Formula.read_eq_trim] at hread
  cases hinner : Formula.read s.store.limits (Text.trim text) with
  | ok f =>
    rw [hinner] at hread
    exact absurd hread (by simp [Except.mapError])
  | error inner =>
    rw [hinner] at hread
    obtain rfl : inner.shift (Text.leadingBytes text) = fault := Except.error.inj hread
    have hcreate : s.dispatch fresh (.create text description) = .error inner := by
      rw [dispatch, Store.create_of_read_error hinner]
      rfl
    have hupdate : s.dispatch fresh (.update id text newDescription) = .error inner := by
      rw [dispatch, Store.update_of_read_error hc hinner]
      rfl
    obtain ⟨p, hp, hplace⟩ := Formula.exists_position hinner (Text.leadingBytes text)
    refine ⟨inner, p, handle_of_dispatch_error hvalidate, handle_of_dispatch_error hcreate,
      handle_of_dispatch_error hupdate, hstatus, Formula.status_of_read_error hinner,
      (Fault.code_shift _ inner).symm, rfl, hp, hplace, fun hnone ↦ ?_⟩
    rw [hnone, Fault.shift_zero]

/-- A service with one rule. -/
def oneRule : Service :=
  (handle ⟨.ofLimits .standard, true⟩ ⟨"0", ⟨0, 0⟩⟩ (.create "a = 'x'" "")).2

/-- The blanks before the text take four bytes. -/
theorem position_leaves_out_leading_blanks_of_two :
    ∃ fault inner, (oneRule.handle ⟨"1", ⟨1, 0⟩⟩ (.validate "\u3000 a 1 2")).1 = .failed fault ∧
      (oneRule.handle ⟨"1", ⟨1, 0⟩⟩ (.create "\u3000 a 1 2" "")).1 = .failed inner ∧
      (oneRule.handle ⟨"1", ⟨1, 0⟩⟩ (.update "0" "\u3000 a 1 2" none)).1 = .failed inner ∧
      fault.position? = some 6 ∧ inner.position? = some 2 := by
  have hplaces : (oneRule.handle ⟨"1", ⟨1, 0⟩⟩ (.validate "\u3000 a 1 2")).1.position? = some 6 ∧
      (oneRule.handle ⟨"1", ⟨1, 0⟩⟩ (.create "\u3000 a 1 2" "")).1.position? = some 2 := by
    decide +kernel
  obtain ⟨fault, hread⟩ : ∃ fault,
      Formula.read oneRule.store.limits "\u3000 a 1 2" = .error fault :=
    exists_error_iff.mpr (by decide +kernel)
  obtain ⟨inner, p, hvalidate, hcreate, hupdate, -⟩ := position_leaves_out_leading_blanks oneRule
    ⟨"1", ⟨1, 0⟩⟩ "0" "\u3000 a 1 2" "" none fault (by decide +kernel) hread
  rw [hvalidate, hcreate] at hplaces
  exact ⟨fault, inner, hvalidate, hcreate, hupdate, hplaces.1, hplaces.2⟩

/-- The place that is named depends on what the text is sent for. -/
theorem position_depends_on_request :
    ¬∀ (s : Service) (fresh : Fresh) (id text description : String)
      (newDescription : Option String), s.store.contains id = true →
        (s.handle fresh (.validate text)).1.succeeds = false →
        (s.handle fresh (.create text description)).1.position? =
            (s.handle fresh (.validate text)).1.position? ∧
          (s.handle fresh (.update id text newDescription)).1.position? =
            (s.handle fresh (.validate text)).1.position? := by
  intro h
  have hplaces := h oneRule ⟨"1", ⟨1, 0⟩⟩ "0" "  a 1 2" "" none (by decide +kernel)
    (by decide +kernel)
  exact absurd hplaces (by decide +kernel)

end Service

end Criteria
