import Criteria.Formula.Parse
import Criteria.Record
import Criteria.Token.Scan

/-!
Why a rule, a record or a call is refused. A fault of what the caller wrote is told apart from an
unknown rule and from damaged data, and each kind has a code and a status.
-/

set_option autoImplicit false
set_option relaxedAutoImplicit false

namespace Criteria

/-- Why a formula that comes with a rule cannot be kept. -/
inductive FormulaFault where
  | unreadable (mismatch : Mismatch)
  | tooDeep (depth : Nat)
  | emptyField (path : String)
  | quotedText (path : String)
  deriving DecidableEq, Repr

def FormulaFault.message : FormulaFault → String
  | .unreadable mismatch => mismatch.message
  | .tooDeep depth => "语法树深度 " ++ toString depth ++ " 超过上限"
  | .emptyField path => "条件 '" ++ path ++ "' 的字段不能为空"
  | .quotedText path => "条件 '" ++ path ++ "' 的文本字面量不能包含单引号"

/-- Why rule texts cannot be combined. -/
inductive CombinationFault where
  | noParts
  | noConnective (part : Nat)
  deriving DecidableEq, Repr

def CombinationFault.message : CombinationFault → String
  | .noParts => "至少需要一条规则"
  | .noConnective part => "第 " ++ toString part ++ " 条规则缺少与下一条规则之间的逻辑操作符"

inductive Fault where
  | lexical (fault : LexicalFault)
  | grammatical (fault : ParseFault)
  | unknownOperator (text : String)
  | formula (fault : FormulaFault)
  | record (fault : RecordFault)
  | combination (fault : CombinationFault)
  | unknownRule (id : String)
  | json (mismatch : Mismatch)
  deriving DecidableEq, Repr

namespace Fault

def code : Fault → String
  | .lexical _ => "LEX_ERROR"
  | .grammatical _ => "SYNTAX_ERROR"
  | .unknownOperator _ => "INVALID_OPERATOR"
  | .formula _ => "INVALID_AST"
  | .record _ => "INVALID_RECORD"
  | .combination _ => "COMBINE_ERROR"
  | .unknownRule _ => "RULE_NOT_FOUND"
  | .json _ => "JSON_ERROR"

/-- The byte of the rule text at which the fault lies. -/
def position? : Fault → Option Nat
  | .lexical fault => some fault.offset
  | .grammatical fault => some fault.offset
  | _ => none

def message : Fault → String
  | .lexical ⟨offset, cause⟩ => "词法错误 (位置 " ++ toString offset ++ "): " ++ cause.message
  | .grammatical ⟨offset, cause⟩ => "语法错误 (位置 " ++ toString offset ++ "): " ++ cause.message
  | .unknownOperator text => "无效的操作符: " ++ text
  | .formula fault => "无效的语法树: " ++ fault.message
  | .record fault => "无效的输入记录: " ++ fault.message
  | .combination fault => "规则组合失败: " ++ fault.message
  | .unknownRule id => "规则未找到: " ++ id
  | .json mismatch => "JSON 序列化错误: " ++ mismatch.message

/-- Whether a caller's rule text, record or combination is at fault. Operators and formulas that are
given by other means than a text are not the caller's. -/
def isUserFault : Fault → Bool
  | .lexical _ | .grammatical _ | .record _ | .combination _ => true
  | _ => false

def status (fault : Fault) : Nat :=
  match fault with
  | .unknownRule _ => 404
  | fault => if fault.isUserFault then 400 else 500

end Fault

end Criteria
