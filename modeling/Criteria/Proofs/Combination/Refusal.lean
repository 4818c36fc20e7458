import Criteria.Proofs.Combination

/-!
Why parts are not combined. Each of the reasons keeps the joining or the reading of the whole from
succeeding, and there are no others; all of them are faults of the caller.
-/

set_option autoImplicit false
set_option relaxedAutoImplicit false

namespace Criteria

open Formula Grammar Token

namespace Part

variable {limits : Limits} {parts : List Part}

/-- What keeps parts from being combined: there are none, a connective is missing, a text cannot be
read, or the joined text is too large. -/
inductive Unfit (limits : Limits) (parts : List Part) : Prop
  | empty (h : parts = [])
  | unconnected (h : ∃ p ∈ parts.dropLast, p.connective = none)
  | unreadable (h : ∃ p ∈ parts, ∃ fault, Formula.read limits p.text = .error fault)
  | exceeding {whole : String} (hjoin : join limits 1 parts = .ok whole)
    (h : Formula.Exceeds limits whole)

end Part

end Criteria
