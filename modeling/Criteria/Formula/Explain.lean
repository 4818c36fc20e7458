import Criteria.Formula.Holds

/-!
The grounds of a decision: every condition is tried, those that hold are listed from left to right,
and a trace, where one is wanted, has a line for each part of the formula, the sides of a join
before the join.
-/

set_option autoImplicit false
set_option relaxedAutoImplicit false

namespace Criteria

/-- A decision and its grounds. -/
structure Explanation where
  holds : Bool
  matched : List String
  trace : List String
  deriving DecidableEq, Repr

namespace Explanation

def outcome (holds : Bool) : String :=
  if holds then "MATCHED" else "NOT_MATCHED"

/-- The value of a field as a trace line shows it. -/
def shown (v : Option Value) : String :=
  match v with
  | none => "<缺失>"
  | some v => v.write

def truth (b : Bool) : String :=
  if b then "true" else "false"

end Explanation

namespace Formula

open Explanation

/-- The trace line of a condition. -/
def testLine (c : Condition) (v : Option Value) (holds : Bool) (path : String) : String :=
  path ++ ": " ++ c.write ++ " (实际值 " ++ shown v ++ ") => " ++ outcome holds

/-- The trace line of a join whose sides came out as `left` and `right`. -/
def joinLine (connective : Connective) (left right : Bool) (path : String) : String :=
  path ++ ": " ++ truth left ++ " " ++ connective.symbol ++ " " ++ truth right ++ " => " ++
    outcome (connective.apply left right)

/-- The explanation of the part of a formula that stands at `path`; without a path there is no
trace. -/
def explainAt (path : Option String) (r : Record) : Formula → Explanation
  | .test c =>
    let holds := c.holds r
    ⟨holds, if holds then [c.write] else [],
      (path.map (testLine c (r.get? c.field) holds)).toList⟩
  | .join connective left right =>
    let l := explainAt (path.map (· ++ ".left")) r left
    let k := explainAt (path.map (· ++ ".right")) r right
    ⟨connective.apply l.holds k.holds, l.matched ++ k.matched,
      l.trace ++ k.trace ++ (path.map (joinLine connective l.holds k.holds)).toList⟩

def explain (tracing : Bool) (f : Formula) (r : Record) : Explanation :=
  f.explainAt (if tracing then some "root" else none) r

theorem holds_explainAt (path : Option String) (r : Record) (f : Formula) :
    (f.explainAt path r).holds = f.holds r := by
  induction f generalizing path with
  | test c => rfl
  | join connective left right ihleft ihright => simp only [explainAt, holds, ihleft, ihright]

/-- A decision with its grounds is the same decision. -/
theorem holds_explain (tracing : Bool) (f : Formula) (r : Record) :
    (f.explain tracing r).holds = f.holds r :=
  f.holds_explainAt _ r

end Formula

end Criteria
