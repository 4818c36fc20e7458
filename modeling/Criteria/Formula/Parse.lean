import Criteria.Formula
import Criteria.Token

/-!
Formulas read from tokens by a machine with a stack. The stack holds one entry for each group that
is open: the byte of its parenthesis and what stood on its left. A chain of conditions is taken
from left to right, whatever its connectives.
-/

set_option autoImplicit false
set_option relaxedAutoImplicit false

namespace Criteria

/-- Bounds on rule texts, so that no text takes more than a known effort. -/
structure Limits where
  maxTokens : Nat
  maxDepth : Nat
  deriving DecidableEq, Repr

def Limits.standard : Limits :=
  ⟨4096, 64⟩

/-- Why tokens are no formula. -/
inductive ParseCause where
  | emptyRule
  | tooManyTokens (count limit : Nat)
  | tooDeep (limit : Nat)
  | unknownConnective (text : String)
  | unknownComparison (text : String)
  | missingCondition
  | shortCondition
  | notField (kind : Token.Kind) (text : String)
  | notComparison (kind : Token.Kind) (text : String)
  | notLiteral (kind : Token.Kind) (text : String)
  | unclosedGroup (opener : Nat)
  | unclosedGroupAt (opener : Nat) (text : String)
  | trailing (text : String)
  deriving DecidableEq, Repr

structure ParseFault where
  offset : Nat
  cause : ParseCause
  deriving DecidableEq, Repr

def ParseCause.message : ParseCause → String
  | .emptyRule => "规则为空"
  | .tooManyTokens count limit =>
    "记号数量 " ++ toString count ++ " 超过上限 " ++ toString limit
  | .tooDeep limit => "括号嵌套深度超过上限 " ++ toString limit
  | .unknownConnective text => "无效的逻辑操作符 '" ++ text ++ "'"
  | .unknownComparison text => "无效的比较操作符 '" ++ text ++ "'"
  | .missingCondition => "缺少比较条件"
  | .shortCondition => "比较条件不完整，需要 '字段 操作符 值' 三个部分"
  | .notField kind text => "期望字段名，实际为" ++ kind.label ++ " '" ++ text ++ "'"
  | .notComparison kind text => "期望比较操作符，实际为" ++ kind.label ++ " '" ++ text ++ "'"
  | .notLiteral kind text =>
    "期望字面量（字符串或数字），实际为" ++ kind.label ++ " '" ++ text ++ "'"
  | .unclosedGroup opener =>
    "缺少右括号 ')'（与位置 " ++ toString opener ++ " 的左括号匹配）"
  | .unclosedGroupAt opener text =>
    "缺少右括号 ')'（与位置 " ++ toString opener ++ " 的左括号匹配），实际为 '" ++ text ++ "'"
  | .trailing text => "表达式后存在多余的记号 '" ++ text ++ "'"

namespace Formula

/-- The three tokens of a condition. The first one at fault is named. -/
def condition (field comparison literal : Token) : Except ParseFault Condition :=
  if field.kind ≠ .identifier then
    .error ⟨field.offset, .notField field.kind field.text⟩
  else if comparison.kind ≠ .comparison then
    .error ⟨comparison.offset, .notComparison comparison.kind comparison.text⟩
  else
    match Comparison.ofSymbol? comparison.text with
    | none => .error ⟨comparison.offset, .unknownComparison comparison.text⟩
    | some op =>
      if literal.kind = .text ∨ literal.kind = .number then
        .ok ⟨field.text, op, Literal.ofTokenText literal.text⟩
      else .error ⟨literal.offset, .notLiteral literal.kind literal.text⟩

/-- The formula on the left of a condition that is still to come, and the connective between. -/
abbrev Pending : Type :=
  Option (Formula × Connective)

def Pending.close (pending : Pending) (f : Formula) : Formula :=
  match pending with
  | none => f
  | some (left, connective) => .join connective left f

/-- An open group: the byte of its parenthesis, and what stood on its left. -/
structure Group where
  opener : Nat
  pending : Pending

/-- What the tokens read so far amount to inside the innermost group: either a condition or a group
has to follow, or a formula is complete. -/
inductive Focus where
  | wanting (pending : Pending)
  | holding (formula : Formula)

/-- Reads on with the groups that are open, the innermost first. `stop` is the byte after the last
token of the text. -/
def parseFrom (maxDepth stop : Nat) : List Group → Focus → List Token → Except ParseFault Formula
  | _, .wanting _, [] => .error ⟨stop, .missingCondition⟩
  | groups, .wanting pending, t :: rest =>
    if t.kind = .leftParen then
      if maxDepth ≤ groups.length then .error ⟨t.offset, .tooDeep maxDepth⟩
      else parseFrom maxDepth stop (⟨t.offset, pending⟩ :: groups) (.wanting none) rest
    else
      match rest with
      | op :: literal :: rest =>
        match condition t op literal with
        | .error fault => .error fault
        | .ok c => parseFrom maxDepth stop groups (.holding (pending.close (.test c))) rest
      | _ => .error ⟨t.offset, .shortCondition⟩
  | [], .holding f, [] => .ok f
  | group :: _, .holding _, [] => .error ⟨stop, .unclosedGroup group.opener⟩
  | groups, .holding f, t :: rest =>
    if t.kind = .connective then
      match Connective.ofSymbol? t.text with
      | none => .error ⟨t.offset, .unknownConnective t.text⟩
      | some connective => parseFrom maxDepth stop groups (.wanting (some (f, connective))) rest
    else
      match groups with
      | [] => .error ⟨t.offset, .trailing t.text⟩
      | group :: groups =>
        if t.kind = .rightParen then
          parseFrom maxDepth stop groups (.holding (group.pending.close f)) rest
        else .error ⟨t.offset, .unclosedGroupAt group.opener t.text⟩

/-- The formula that the tokens spell, within the limits. -/
def parse (limits : Limits) (tokens : List Token) : Except ParseFault Formula :=
  match tokens.getLast? with
  | none => .error ⟨0, .emptyRule⟩
  | some last =>
    if limits.maxTokens < tokens.length then
      .error ⟨0, .tooManyTokens tokens.length limits.maxTokens⟩
    else parseFrom limits.maxDepth last.stop [] (.wanting none) tokens

end Formula

end Criteria
