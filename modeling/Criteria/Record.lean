import Criteria.Json.Decode
import Criteria.Text.Class

/-!
The records that rules are asked about: named values, one value to a name. A value is a number, a
text, a truth value or null; nested JSON counts as null.
-/

set_option autoImplicit false
set_option relaxedAutoImplicit false

namespace Criteria

inductive Value where
  | number (x : Float)
  | text (s : String)
  | flag (b : Bool)
  | null
  deriving BEq, Repr

namespace Value

def ofJson : Json → Value
  | .bool b => .flag b
  | .text s => .text s
  | v =>
    match v.asNumber? with
    | some x => .number x
    | none => .null

/-- The string form, to which literals are compared. -/
def write : Value → String
  | .number x => Layout.plain.write x
  | .text s => s
  | .flag true => "true"
  | .flag false => "false"
  | .null => "null"

def typeName : Value → String
  | .number _ => "number"
  | .text _ => "string"
  | .flag _ => "boolean"
  | .null => "null"

def isNull : Value → Bool
  | .null => true
  | _ => false

/-- A number, or a text that spells a finite one between blanks. -/
def number? : Value → Option Float
  | .number x => some x
  | .text s => finiteNumeral? (Text.trimChars s.toList)
  | _ => none

end Value

/-- Named values, the latest first; the first value of a name is the one that counts. -/
structure Record where
  fields : List (String × Value)
  deriving BEq

/-- Why a value is no record. -/
inductive RecordFault where
  | notObject (found : String)
  | unreadable (mismatch : Mismatch)
  deriving DecidableEq, Repr

def RecordFault.message : RecordFault → String
  | .notObject found => "记录必须是 JSON 对象，实际为 " ++ found
  | .unreadable mismatch => mismatch.message

namespace Record

def empty : Record :=
  ⟨[]⟩

def insert (r : Record) (name : String) (v : Value) : Record :=
  ⟨(name, v) :: r.fields⟩

def ofPairs (pairs : List (String × Value)) : Record :=
  pairs.foldl (fun r (name, v) ↦ r.insert name v) empty

def get? (r : Record) (name : String) : Option Value :=
  r.fields.lookup name

/-- How many names have a value. -/
def size (r : Record) : Nat :=
  (r.fields.map Prod.fst).eraseDups.length

/-- The type of a JSON value, as messages name it. -/
def jsonTypeName : Json → String
  | .null => "null"
  | .bool _ => "boolean"
  | .int _ | .real _ => "number"
  | .text _ => "string"
  | .array _ => "array"
  | .object _ => "object"

def ofJson : Json → Except RecordFault Record
  | .object members => .ok (ofPairs (members.map fun (name, v) ↦ (name, Value.ofJson v)))
  | v => .error (.notObject (jsonTypeName v))

/-- The record that a JSON text holds. -/
def ofText (s : String) : Except RecordFault Record :=
  match Json.ofText (some Json.nestingLimit) s with
  | .error mismatch => .error (.unreadable mismatch)
  | .ok v => ofJson v

end Record

end Criteria
