/-!
The tokens of a rule text. A token keeps its characters as written and the byte at which it begins,
so that a fault found later can point into the text.
-/

set_option autoImplicit false
set_option relaxedAutoImplicit false

namespace Criteria

namespace Token

inductive Kind where
  | identifier
  | text
  | number
  | comparison
  | connective
  | leftParen
  | rightParen
  deriving DecidableEq, Repr

/-- The kind as messages name it. -/
def Kind.label : Kind → String
  | .identifier => "标识符"
  | .text => "字符串字面量"
  | .number => "数字字面量"
  | .comparison => "比较操作符"
  | .connective => "逻辑操作符"
  | .leftParen => "左括号"
  | .rightParen => "右括号"

end Token

structure Token where
  kind : Token.Kind
  text : String
  offset : Nat
  deriving DecidableEq, Repr

/-- The byte after the last one of the token. -/
def Token.stop (t : Token) : Nat :=
  t.offset + t.text.utf8ByteSize

end Criteria
