import Criteria.Formula.Read

/-!
Rule texts joined into one. Each part stands in parentheses, so that the whole decides as the parts
do, taken from left to right.
-/

set_option autoImplicit false
set_option relaxedAutoImplicit false

namespace Criteria

/-- A rule text, and the connective between it and the next one. -/
structure Part where
  text : String
  connective : Option Connective
  deriving DecidableEq, Repr

namespace Part

/-- The text as it stands in the whole. -/
def write (p : Part) : String :=
  "(" ++ Text.trim p.text ++ ")"

/-- The parts, of which the first is the `index`th, joined without regard to the length of the
whole. The connective of the last part has no meaning. -/
def join (limits : Limits) (index : Nat) : List Part → Except Fault String
  | [] => .error (.combination .noParts)
  | [p] => do
    let _ ← Formula.read limits p.text
    return p.write
  | p :: q :: rest => do
    let _ ← Formula.read limits p.text
    match p.connective with
    | none => .error (.combination (.noConnective index))
    | some connective =>
      let joined ← join limits (index + 1) (q :: rest)
      return p.write ++ " " ++ connective.symbol ++ " " ++ joined

/-- One rule text that decides as the parts do, within the limits. -/
def combine (limits : Limits) (parts : List Part) : Except Fault String := do
  let whole ← join limits 1 parts
  let _ ← Formula.read limits whole
  return whole

end Part

end Criteria
