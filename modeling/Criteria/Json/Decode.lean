import Criteria.Json.Draft
import Criteria.Text.Hidden

/-!
Typed values taken from JSON. A text is decoded in the order in which it is written, and its first
fault counts, be it of form or of type. Known members may not be repeated.
-/

set_option autoImplicit false
set_option relaxedAutoImplicit false

namespace Criteria

/-- Why a text or a value is not of the wanted type. -/
inductive Mismatch where
  | malformed
  | wrongType (found wanted : String)
  | wrongValue (found wanted : String)
  | missing (member : String)
  | repeated (member : String)
  | unknownVariant (name : String) (known : List String)
  | noVariant (type : String)
  | wrongLength (count : Nat) (wanted : String)
  | unknownOperator (text : String)
  | badInstant (reason : String)
  deriving DecidableEq, Repr

namespace Mismatch

def inBackticks (s : String) : String :=
  "`" ++ s ++ "`"

/-- A choice of names in words. -/
def choice (known : List String) : String :=
  match known with
  | [] => "there are no variants"
  | [a] => "expected " ++ inBackticks a
  | [a, b] => "expected " ++ inBackticks a ++ " or " ++ inBackticks b
  | names => "expected one of " ++ ", ".intercalate (names.map inBackticks)

def message : Mismatch → String
  | .malformed => "malformed JSON"
  | .wrongType found wanted => "invalid type: " ++ found ++ ", expected " ++ wanted
  | .wrongValue found wanted => "invalid value: " ++ found ++ ", expected " ++ wanted
  | .missing member => "missing field " ++ inBackticks member
  | .repeated member => "duplicate field " ++ inBackticks member
  | .unknownVariant name known =>
    "unknown variant " ++ inBackticks name ++ ", " ++ choice known
  | .noVariant type => "data did not match any variant of untagged enum " ++ type
  | .wrongLength count wanted =>
    "invalid length " ++ toString count ++ ", expected " ++ wanted
  | .unknownOperator text => "无效的操作符: " ++ text
  | .badInstant reason => reason

end Mismatch

namespace Json

/-- A character of a quoted text in a message. One that does not show is written by its code
point. -/
def visible (c : Char) : List Char :=
  match c with
  | '"' => ['\\', '"']
  | '\\' => ['\\', '\\']
  | '\n' => ['\\', 'n']
  | '\r' => ['\\', 'r']
  | '\t' => ['\\', 't']
  | '\x00' => ['\\', '0']
  | c =>
    if Text.isHidden c then ['\\', 'u', '\x7b'] ++ Nat.toDigits 16 c.toNat ++ ['\x7d']
    else [c]

/-- What a value is, in words. -/
def describe : Json → String
  | .null => "null"
  | .bool true => "boolean `true`"
  | .bool false => "boolean `false`"
  | .int n => "integer `" ++ toString n ++ "`"
  | .real x => "floating point `" ++ Layout.json.write x ++ "`"
  | .text s => "string \"" ++ String.ofList (s.toList.flatMap visible) ++ "\""
  | .array _ => "sequence"
  | .object _ => "map"

def asText : Json → Except Mismatch String
  | .text s => .ok s
  | v => .error (.wrongType v.describe "a string")

def asItems : Json → Except Mismatch (List Json)
  | .array items => .ok items
  | v => .error (.wrongType v.describe "a sequence")

/-- A value that may be null, which stands for its absence. -/
def asOptional {α : Type} (decode : Json → Except Mismatch α) : Json → Except Mismatch (Option α)
  | .null => .ok none
  | v => (decode v).map some

/-- A number that the field of a record or a literal can hold. -/
def asNumber? : Json → Option Float
  | .int n => some (Decimal.toFloat (n < 0) ⟨n.natAbs, 0⟩)
  | .real x => some x
  | _ => none

/-- Fills the place of a member that may occur once. -/
def fill {α β : Type} (member : String) (decode : β → Except Mismatch α) (place : Option α)
    (v : β) : Except Mismatch (Option α) :=
  match place with
  | some _ => .error (.repeated member)
  | none => (decode v).map some

/-- The value of a member that has to be there. -/
def require {α : Type} (member : String) : Option α → Except Mismatch α
  | some a => .ok a
  | none => .error (.missing member)

/-- The variant that has a name. -/
def variantNamed {α : Type} (known : List (String × α)) (name : String) : Except Mismatch α :=
  match known.lookup name with
  | some a => .ok a
  | none => .error (.unknownVariant name (known.map Prod.fst))

/-- Reads the variant of a value inside another one: its name, or its place among the variants. -/
def asVariant {α : Type} (known : List (String × α)) : Json → Except Mismatch α
  | .text name => variantNamed known name
  | .int (.ofNat n) =>
    match known[n]? with
    | some (_, a) => .ok a
    | none =>
      .error (.wrongValue (describe (.int n))
        ("variant index 0 <= i < " ++ toString known.length))
  | v => .error (.wrongType v.describe "variant identifier")

/-- The variant that the member `tag` gives, wherever it stands. -/
def tagOf {α : Type} (tag : String) (known : List (String × α)) (members : List (String × Json)) :
    Except Mismatch α := do
  let place ← members.foldlM (fun place (name, v) ↦
    if name = tag then fill tag (asVariant known) place v else .ok place) none
  require tag place

/-- The end of an array that had `wanted` items before the rest. -/
def noMore (wanted : Nat) (rest : List Json) : Except Mismatch Unit :=
  if rest = [] then .ok ()
  else
    .error (.wrongLength (wanted + rest.length)
      (toString wanted ++ (if wanted = 1 then " element" else " elements") ++ " in sequence"))

/-- Up to here, a text has to be well-formed. -/
def wellFormed (b : Bool) : Except Mismatch Unit :=
  if b then .ok () else .error .malformed

/-- What stands beside the tag of a value: the members of an object, or the items of an array. -/
inductive Contents where
  | members (members : List (String × Json))
  | items (items : List Json)

namespace Draft

/-- Why a draft is not what is wanted: by its first token, as far as there is one. -/
def refusal (wanted : String) : Draft → Mismatch
  | .leaf (some v) => .wrongType v.describe wanted
  | .array .. => .wrongType "sequence" wanted
  | .object .. => .wrongType "map" wanted
  | .leaf none | .broken => .malformed

def asJson (d : Draft) : Except Mismatch Json :=
  match d.whole? with
  | some v => .ok v
  | none => .error .malformed

def asTextOr (wanted : String) : Draft → Except Mismatch String
  | .leaf (some (.text s)) => .ok s
  | d => .error (d.refusal wanted)

def asText : Draft → Except Mismatch String :=
  asTextOr "a string"

/-- A value that may be null, which stands for its absence. -/
def asOptional {α : Type} (decode : Draft → Except Mismatch α) :
    Draft → Except Mismatch (Option α)
  | .leaf (some .null) => .ok none
  | d => (decode d).map some

def asVariant {α : Type} (known : List (String × α)) (d : Draft) : Except Mismatch α := do
  variantNamed known (← d.asTextOr "variant identifier")

/-- Takes a member of a tagged object: the tag is decoded at once, anything else later. -/
def addTagged {α : Type} (tag : String) (known : List (String × α))
    (m : Option α × List (String × Json)) :
    Option String × Draft → Except Mismatch (Option α × List (String × Json))
  | (none, _) => .error .malformed
  | (some name, d) => do
    if name = tag then return (← fill tag (asVariant known) m.1 d, m.2)
    else return (m.1, (name, ← d.asJson) :: m.2)

/-- The variant that a tag names, and what stands beside it, where the first item of an array is the
tag. -/
def tagged {α : Type} (tag wanted : String) (known : List (String × α)) :
    Draft → Except Mismatch (α × Contents)
  | .object members closed => do
    let (place, done) ← members.foldlM (addTagged tag known) (none, [])
    wellFormed closed
    return (← require tag place, .members done.reverse)
  | .array [] closed => do
    wellFormed closed
    .error (.missing tag)
  | .array (first :: rest) closed => do
    let a ← first.asVariant known
    match wholeItems [] rest, closed with
    | some items, true => return (a, .items items)
    | _, _ => .error .malformed
  | d => .error (d.refusal wanted)

end Draft

/-- Decodes the value that a text holds. Nothing may follow it. -/
def decodeText {α : Type} (limit : Option Nat) (decode : Draft → Except Mismatch α) (s : String) :
    Except Mismatch α := do
  let (d, alone) := readDraft limit s
  let a ← decode d
  wellFormed alone
  return a

/-- The value that a whole text holds. -/
def ofText (limit : Option Nat) (s : String) : Except Mismatch Json :=
  decodeText limit Draft.asJson s

end Json

end Criteria
