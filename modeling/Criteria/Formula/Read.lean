import Criteria.Fault

/-!
Formulas read from rule texts, and formulas that come ready made. The latter are held to what a
rule text can say.
-/

set_option autoImplicit false
set_option relaxedAutoImplicit false

namespace Criteria

namespace Formula

/-- The formula that a rule text spells, within the limits. -/
def read (limits : Limits) (s : String) : Except Fault Formula :=
  match Token.scan s with
  | .error fault => .error (.lexical fault)
  | .ok tokens =>
    match parse limits tokens with
    | .error fault => .error (.grammatical fault)
    | .ok f => .ok f

/-- The first condition, from left to right, that no rule text says. The path names the sides of the
joins above it. -/
def checkConditions (path : String) : Formula → Except FormulaFault Unit
  | .test c =>
    if c.field = "" then .error (.emptyField path)
    else if c.literal.hasQuote then .error (.quotedText path)
    else .ok ()
  | .join _ left right => do
    checkConditions (path ++ ".left") left
    checkConditions (path ++ ".right") right

/-- A formula without a text is no deeper than the number of tokens that a text may have. -/
def check (limits : Limits) (f : Formula) : Except FormulaFault Unit :=
  if limits.maxTokens < f.depth then .error (.tooDeep f.depth) else f.checkConditions "root"

end Formula

end Criteria
