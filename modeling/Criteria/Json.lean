import Criteria.Decimal.Layout
import Criteria.Text.Class

/-!
JSON values and their compact text. A number is an integer of at most 64 bits or a binary64 number;
an object keeps its members in written order, repeated names included.
-/

set_option autoImplicit false
set_option relaxedAutoImplicit false

namespace Criteria

inductive Json where
  | null
  | bool (b : Bool)
  | int (n : Int)
  | real (x : Float)
  | text (s : String)
  | array (items : List Json)
  | object (members : List (String × Json))
  deriving BEq, Inhabited

namespace Json

/-- A character inside quotes. Only quotes, backslashes and control characters are escaped. -/
def escaped (c : Char) : List Char :=
  match c with
  | '"' => ['\\', '"']
  | '\\' => ['\\', '\\']
  | '\x08' => ['\\', 'b']
  | '\x0c' => ['\\', 'f']
  | '\n' => ['\\', 'n']
  | '\r' => ['\\', 'r']
  | '\t' => ['\\', 't']
  | c =>
    if c.toNat < 0x20 then
      ['\\', 'u', '0', '0', Text.hexDigit (c.toNat / 16), Text.hexDigit (c.toNat % 16)]
    else [c]

/-- The quoted text in front of `rest`. -/
def quotedOnto (s : String) (rest : List Char) : List Char :=
  '"' :: s.toList.foldr (fun c tail ↦ escaped c ++ tail) ('"' :: rest)

/-- A number without a JSON text is written as null. -/
def realOnto (x : Float) (rest : List Char) : List Char :=
  if x.isFinite then Layout.json.chars x ++ rest else 'n' :: 'u' :: 'l' :: 'l' :: rest

mutual

/-- The text of a value in front of `rest`. -/
def onto : Json → List Char → List Char
  | .null, rest => 'n' :: 'u' :: 'l' :: 'l' :: rest
  | .bool true, rest => 't' :: 'r' :: 'u' :: 'e' :: rest
  | .bool false, rest => 'f' :: 'a' :: 'l' :: 's' :: 'e' :: rest
  | .int n, rest => (toString n).toList ++ rest
  | .real x, rest => realOnto x rest
  | .text s, rest => quotedOnto s rest
  | .array items, rest => '[' :: itemsOnto items rest
  | .object members, rest => '{' :: membersOnto members rest

/-- The items after an opening bracket, the closing one included. -/
def itemsOnto : List Json → List Char → List Char
  | [], rest => ']' :: rest
  | [item], rest => onto item (']' :: rest)
  | item :: next :: items, rest => onto item (',' :: itemsOnto (next :: items) rest)

/-- The members after an opening brace, the closing one included. -/
def membersOnto : List (String × Json) → List Char → List Char
  | [], rest => '}' :: rest
  | [(name, value)], rest => quotedOnto name (':' :: onto value ('}' :: rest))
  | (name, value) :: next :: members, rest =>
    quotedOnto name (':' :: onto value (',' :: membersOnto (next :: members) rest))

end

def write (v : Json) : String :=
  String.ofList (v.onto [])

end Json

end Criteria
