import Criteria.Decimal.Numeral
import Criteria.Text.Class

/-!
Configuration files cut into tokens, one character at a time. Words are names, numbers, truth values
and moments; a quoted text stands on one line, or on several ones between three quotes, and a
comment lasts until the end of its line.
-/

set_option autoImplicit false
set_option relaxedAutoImplicit false

namespace Criteria.Settings.Toml

/-- A bracket is `adjacent` if it directly follows another one. -/
inductive Token where
  | word (cs : List Char)
  | text (cs : List Char)
  /-- A text of several lines, even if it has only one. -/
  | block (cs : List Char)
  | equals
  | comma
  | openBracket (adjacent : Bool)
  | closeBracket (adjacent : Bool)
  | openBrace
  | closeBrace
  | newline
  deriving DecidableEq, Repr

namespace Token

/-- How a text is quoted: escapes are read only in a basic one. -/
inductive Quote where
  | basic
  | literal
  deriving DecidableEq, Repr

def Quote.char : Quote → Char
  | .basic => '"'
  | .literal => '\''

/-- What the characters read last belong to, with those of a word or text in reverse. -/
inductive Mode where
  | between
  | bracket
  | word (done : List Char)
  /-- A blank after a date, which a time may follow. -/
  | gap (done : List Char)
  /-- One or two quotes, which may begin a text of several lines. -/
  | quotes (q : Quote) (two : Bool)
  | line (q : Quote) (done : List Char)
  /-- A text of several lines with the number of quotes that it ends in so far. -/
  | block (q : Quote) (fresh : Bool) (done : List Char) (ending : Nat)
  | escape (several : Bool) (done : List Char)
  | code (several : Bool) (done : List Char) (missing value : Nat)
  /-- Blanks after a backslash, which do not count if there is the end of a line among them. -/
  | splice (done : List Char) (ended : Bool)
  | comment

/-- The tokens read so far, in reverse, and what is being read. -/
structure Scanner where
  done : List Token
  mode : Mode

def isWordChar (c : Char) : Bool :=
  c.isAlphanum || c = '_' || c = '-' || c = '+' || c = '.' || c = ':'

/-- Whether a comment or a quoted text may hold the character. -/
def isAllowed (c : Char) : Bool :=
  c = '\t' || (0x20 ≤ c.toNat && c.toNat ≠ 0x7F)

/-- Whether a word, in reverse, has the form of a date. -/
def isDate (done : List Char) : Bool :=
  done.reverse.map (fun c ↦ if Decimal.isAsciiDigit c then '0' else c) = "0000-00-00".toList

namespace Scanner

def start : Scanner :=
  ⟨[], .between⟩

/-- A character between tokens; `adjacent` tells whether a bracket stands directly before it. -/
def begin (done : List Token) (adjacent : Bool) (c : Char) : Option Scanner :=
  match c with
  | ' ' | '\t' => some ⟨done, .between⟩
  | '\n' => some ⟨.newline :: done, .between⟩
  | '#' => some ⟨done, .comment⟩
  | '=' => some ⟨.equals :: done, .between⟩
  | ',' => some ⟨.comma :: done, .between⟩
  | '[' => some ⟨.openBracket adjacent :: done, .bracket⟩
  | ']' => some ⟨.closeBracket adjacent :: done, .bracket⟩
  | '\x7b' => some ⟨.openBrace :: done, .between⟩
  | '\x7d' => some ⟨.closeBrace :: done, .between⟩
  | '"' => some ⟨done, .quotes .basic false⟩
  | '\'' => some ⟨done, .quotes .literal false⟩
  | c => if isWordChar c then some ⟨done, .word [c]⟩ else none

/-- The mode in which a basic text goes on. -/
def resume (several : Bool) (cs : List Char) : Mode :=
  if several then .block .basic false cs 0 else .line .basic cs

/-- The character that follows a backslash. -/
def unescape (several : Bool) (cs : List Char) (c : Char) : Option Mode :=
  match c with
  | 'b' => some (resume several ('\x08' :: cs))
  | 't' => some (resume several ('\t' :: cs))
  | 'n' => some (resume several ('\n' :: cs))
  | 'f' => some (resume several ('\x0c' :: cs))
  | 'r' => some (resume several ('\r' :: cs))
  | 'e' => some (resume several ('\x1b' :: cs))
  | '"' => some (resume several ('"' :: cs))
  | '\\' => some (resume several ('\\' :: cs))
  | 'x' => some (.code several cs 2 0)
  | 'u' => some (.code several cs 4 0)
  | 'U' => some (.code several cs 8 0)
  | ' ' | '\t' => if several then some (.splice cs false) else none
  | '\n' => if several then some (.splice cs true) else none
  | _ => none

/-- One more digit of a code point, of which `missing` are missing with it. -/
def unescapeCode (several : Bool) (cs : List Char) (missing value digit : Nat) : Option Mode :=
  let value := 16 * value + digit
  if missing = 1 then
    if h : value.isValidChar then some (resume several (Char.ofNatAux value h :: cs)) else none
  else some (.code several cs (missing - 1) value)

/-- A character of a text on one line. -/
def lineStep (s : Scanner) (q : Quote) (cs : List Char) (c : Char) : Option Scanner :=
  if c = q.char then some ⟨.text cs.reverse :: s.done, .between⟩
  else if c = '\\' ∧ q = .basic then some ⟨s.done, .escape false cs⟩
  else if isAllowed c then some ⟨s.done, .line q (c :: cs)⟩
  else none

/-- The text of several lines that ends in so many quotes: all but three of them belong to it. -/
def endBlock (q : Quote) (cs : List Char) (ending : Nat) : Token :=
  .block (cs.reverse ++ List.replicate (ending - 3) q.char)

/-- A character of a text of several lines. A line that ends where the text begins does not
count. -/
def blockStep (s : Scanner) (q : Quote) (fresh : Bool) (cs : List Char) (ending : Nat) (c : Char) :
    Option Scanner :=
  if c = q.char then
    if ending = 4 then some ⟨endBlock q cs 5 :: s.done, .between⟩
    else some ⟨s.done, .block q false cs (ending + 1)⟩
  else if 3 ≤ ending then begin (endBlock q cs ending :: s.done) false c
  else
    let cs := List.replicate ending q.char ++ cs
    if c = '\\' ∧ q = .basic then some ⟨s.done, .escape true cs⟩
    else if c = '\n' ∧ fresh then some ⟨s.done, .block q false [] 0⟩
    else if c = '\n' ∨ isAllowed c then some ⟨s.done, .block q false (c :: cs) 0⟩
    else none

/-- A character after one quote or two. -/
def quotesStep (s : Scanner) (q : Quote) (two : Bool) (c : Char) : Option Scanner :=
  match two with
  | false => if c = q.char then some ⟨s.done, .quotes q true⟩ else s.lineStep q [] c
  | true =>
    if c = q.char then some ⟨s.done, .block q true [] 0⟩
    else begin (.text [] :: s.done) false c

/-- A character after a backslash and blanks. -/
def spliceStep (s : Scanner) (cs : List Char) (ended : Bool) (c : Char) : Option Scanner :=
  if c = ' ' ∨ c = '\t' then some s
  else if c = '\n' then some ⟨s.done, .splice cs true⟩
  else if ended then s.blockStep .basic false cs 0 c
  else none

def step (s : Scanner) (c : Char) : Option Scanner :=
  match s.mode with
  | .between => begin s.done false c
  | .bracket => begin s.done true c
  | .word cs =>
    if isWordChar c then some ⟨s.done, .word (c :: cs)⟩
    else if c = ' ' ∧ isDate cs then some ⟨s.done, .gap cs⟩
    else begin (.word cs.reverse :: s.done) false c
  | .gap cs =>
    if Decimal.isAsciiDigit c then some ⟨s.done, .word (c :: ' ' :: cs)⟩
    else begin (.word cs.reverse :: s.done) false c
  | .quotes q two => s.quotesStep q two c
  | .line q cs => s.lineStep q cs c
  | .block q fresh cs ending => s.blockStep q fresh cs ending c
  | .escape several cs => (unescape several cs c).map fun mode ↦ ⟨s.done, mode⟩
  | .code several cs missing value => do
    let digit ← Text.hexValue? c
    return ⟨s.done, ← unescapeCode several cs missing value digit⟩
  | .splice cs ended => s.spliceStep cs ended c
  | .comment =>
    if c = '\n' then begin s.done false c
    else if isAllowed c then some s
    else none

/-- The tokens, if the text does not end inside one. -/
def finish (s : Scanner) : Option (List Token) :=
  match s.mode with
  | .between | .bracket | .comment => some s.done.reverse
  | .word cs | .gap cs => some (.word cs.reverse :: s.done).reverse
  | .quotes _ true => some (.text [] :: s.done).reverse
  | .block q _ cs ending =>
    if 3 ≤ ending then some (endBlock q cs ending :: s.done).reverse else none
  | _ => none

end Scanner

/-- A text without the byte order mark that it may begin with. -/
def withoutMark : List Char → List Char
  | '\ufeff' :: rest => rest
  | cs => cs

/-- A text with its lines ended in one way. -/
def withPlainLines : List Char → List Char
  | '\r' :: '\n' :: rest => '\n' :: withPlainLines rest
  | c :: rest => c :: withPlainLines rest
  | [] => []

/-- The tokens of a text. -/
def ofChars? (cs : List Char) : Option (List Token) := do
  (← (withPlainLines (withoutMark cs)).foldlM Scanner.step .start).finish

end Token

end Criteria.Settings.Toml
