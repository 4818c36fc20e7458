import Criteria.Formula.Explain
import Criteria.Formula.Read
import Criteria.Rule

/-!
Rules made ready to decide. A compiler numbers the rules that it accepts, one after another, and
takes the formula that a rule carries in place of reading its text.
-/

set_option autoImplicit false
set_option relaxedAutoImplicit false

namespace Criteria

/-- A rule without its cache, and the formula by which it decides. The version is the number that
the compiler gave it, see `Compiler`. -/
structure Compiled where
  rule : Rule
  formula : Formula
  version : Nat
  deriving BEq

namespace Compiled

def id (c : Compiled) : String :=
  c.rule.id

/-- The rule with its formula as the cache. -/
def toRule (c : Compiled) : Rule :=
  { c.rule with formula := some c.formula }

/-- The names of the fields on which a decision depends. -/
def fieldNames (c : Compiled) : List String :=
  c.formula.fieldNames

def explain (tracing : Bool) (c : Compiled) (r : Record) : Explanation :=
  c.formula.explain tracing r

end Compiled

/-- The formula that a rule carries, if it passes the check; else the one that its text spells. -/
def Rule.resolve (limits : Limits) (r : Rule) : Except Fault Formula :=
  match r.formula with
  | none => Formula.read limits r.text
  | some f =>
    match f.check limits with
    | .ok () => .ok f
    | .error fault => .error (.formula fault)

/-- The limits on rules, and the number of rules accepted so far. The number has no bound here,
while a running compiler counts in a word of 64 bits: it would be back at the first version after
2 ^ 64 rules, which no compiler lives to accept. -/
structure Compiler where
  limits : Limits
  version : Nat
  deriving DecidableEq, Repr

namespace Compiler

def ofLimits (limits : Limits) : Compiler :=
  ⟨limits, 0⟩

def compile (k : Compiler) (r : Rule) : Except Fault (Compiled × Compiler) := do
  let f ← r.resolve k.limits
  let version := k.version + 1
  return (⟨{ r with formula := none }, f, version⟩, { k with version })

end Compiler

end Criteria
