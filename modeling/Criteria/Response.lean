import Criteria.Fault
import Criteria.Formula.Explain
import Criteria.Formula.Json
import Criteria.Rule
import Criteria.Text.Utf8

/-!
What a caller is answered. Each answer has a status, and succeeds just if that is 200 or 201; its
JSON text is one line.
-/

set_option autoImplicit false
set_option relaxedAutoImplicit false

namespace Criteria

/-- What a rule says of a record, and why. -/
structure Decision where
  ruleId : String
  explanation : Explanation
  deriving DecidableEq, Repr

/-- The JSON of a decision that took so many microseconds. An empty trace is left out. -/
def Decision.toJson (micros : Nat) (d : Decision) : Json :=
  .object <|
    [("rule_id", .text d.ruleId), ("eligible", .bool d.explanation.holds),
      ("matched_conditions", .array (d.explanation.matched.map .text))] ++
      (if d.explanation.trace = [] then []
        else [("evaluation_trace", .array (d.explanation.trace.map .text))]) ++
      [("evaluation_time_us", .int micros)]

/-- Why a line is no request. -/
inductive Refusal where
  | notUtf8 (fault : Text.Utf8Fault)
  | unreadable (mismatch : Mismatch)
  deriving DecidableEq, Repr

def Refusal.message : Refusal → String
  | .notUtf8 fault => "请求不是有效的 UTF-8: " ++ fault.message
  | .unreadable mismatch => "无法解析请求: " ++ mismatch.message

inductive Response where
  | created (rule : Rule)
  | rule (rule : Rule)
  | rules (rules : List Rule)
  | decided (decision : Decision)
  | valid (formula : Formula)
  | failed (fault : Fault)
  | refused (refusal : Refusal)

namespace Response

def status : Response → Nat
  | .created _ => 201
  | .rule _ | .rules _ | .decided _ | .valid _ => 200
  | .failed fault => fault.status
  | .refused _ => 400

def succeeds : Response → Bool
  | .failed _ | .refused _ => false
  | _ => true

/-- The members that depend on what is answered, `micros` being the time that it took. -/
def contents (micros : Nat) : Response → List (String × Json)
  | .created r | .rule r => [("rule", r.toJson)]
  | .rules rs => [("rules", .array (rs.map Rule.toJson))]
  | .decided d => [("eligible", .bool d.explanation.holds), ("result", d.toJson micros)]
  | .valid f => [("ast", f.toJson), ("rule_string", .text f.write)]
  | .failed fault =>
    [("error", .text fault.message), ("code", .text fault.code)] ++
      (fault.position?.map fun p ↦ ("details", .object [("position", .int p)])).toList
  | .refused refusal => [("error", .text refusal.message), ("code", .text "INVALID_REQUEST")]

def toJson (micros : Nat) (a : Response) : Json :=
  .object <|
    [("success", .bool a.succeeds), ("status", .int a.status)] ++ a.contents micros

end Response

end Criteria
