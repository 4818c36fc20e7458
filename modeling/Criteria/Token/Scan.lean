import Criteria.Token.Lexeme

/-!
A rule text cut into tokens. Blanks between tokens are skipped; the first place at which no lexeme
begins is a fault.
-/

set_option autoImplicit false
set_option relaxedAutoImplicit false

namespace Criteria

open Text

/-- Why no token begins at a place. -/
inductive LexicalCause where
  | unclosedText
  | unexpected (c : Char)
  deriving DecidableEq, Repr

structure LexicalFault where
  offset : Nat
  cause : LexicalCause
  deriving DecidableEq, Repr

def LexicalCause.message : LexicalCause → String
  | .unclosedText => "字符串字面量缺少结束引号"
  | .unexpected c => "无法识别的字符 '" ++ String.singleton c ++ "'"

namespace Token

/-- Reads on from the middle of a text: `done` holds the tokens read, last first, and `offset` is
the number of bytes before `cs`. -/
def scanFrom (done : List Token) (offset : Nat) (cs : List Char) :
    Except LexicalFault (List Token) :=
  match cs with
  | [] => .ok done.reverse
  | c :: rest =>
    if isBlank c then scanFrom done (offset + c.utf8Size) rest
    else
      match _h : lexeme? (c :: rest) with
      | none => .error ⟨offset, if c = '\'' then .unclosedText else .unexpected c⟩
      | some (kind, text, after) =>
        scanFrom (⟨kind, String.ofList text, offset⟩ :: done) (offset + byteLength text) after
termination_by cs.length
decreasing_by
  · simp
  · exact length_lt_of_lexeme? _h

def scan (s : String) : Except LexicalFault (List Token) :=
  scanFrom [] 0 s.toList

end Token

end Criteria
