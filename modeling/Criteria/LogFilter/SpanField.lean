import Criteria.Decimal.Layout
import Criteria.Decimal.Numeral
import Criteria.LogFilter.Pattern

/-!
What a directive says of a field that a span has: its name, and maybe what its value is. A value is
read as what it looks like, and a text that looks like nothing else is a pattern.
-/

set_option autoImplicit false
set_option relaxedAutoImplicit false

namespace Criteria

/-- The value that a field has to have. A pattern stands for the texts that it matches. -/
inductive FieldValue where
  | flag (b : Bool)
  | real (x : Float)
  | notANumber
  | integer (n : Int)
  | natural (n : Nat)
  | pattern (s : String)
  deriving BEq

namespace FieldValue

/-- The value that a text spells, if it is not a malformed pattern. -/
def read? (cs : List Char) : Option FieldValue :=
  if cs = "true".toList then some (.flag true)
  else if cs = "false".toList then some (.flag false)
  else
    match natural? cs, integer? cs, numeral? cs with
    | some n, _, _ => some (.natural n)
    | none, some n, _ => some (.integer n)
    | none, none, some x => some (if x.isNaN then .notANumber else .real x)
    | none, none, none => if Pattern.isValid cs then some (.pattern (String.ofList cs)) else none

def write : FieldValue → String
  | .flag b => if b then "true" else "false"
  | .real x => Layout.plain.write x
  | .notANumber => "NaN"
  | .integer n => toString n
  | .natural n => toString n
  | .pattern s => s

/-- The place of a kind of values in their order. -/
def rank : FieldValue → Nat
  | .flag _ => 0
  | .real _ => 1
  | .notANumber => 2
  | .integer _ => 3
  | .natural _ => 4
  | .pattern _ => 5

/-- The order of values: by kind, and within one by size. The two zeros are one value. -/
def order : FieldValue → FieldValue → Ordering
  | .flag a, .flag b => compare a b
  | .real x, .real y => if x < y then .lt else if y < x then .gt else .eq
  | .integer m, .integer n => compare m n
  | .natural m, .natural n => compare m n
  | .pattern s, .pattern t => compare s t
  | v, w => compare v.rank w.rank

end FieldValue

/-- A field that a span has to have. -/
structure SpanField where
  name : String
  value : Option FieldValue
  deriving BEq

namespace SpanField

/-- The field that a text spells. What stands behind a second equals sign means nothing. -/
def read? (cs : List Char) : Option SpanField := do
  let name := String.ofList (cs.takeWhile (· ≠ '='))
  match cs.dropWhile (· ≠ '=') with
  | [] => return ⟨name, none⟩
  | _ :: rest => return ⟨name, some (← FieldValue.read? (rest.takeWhile (· ≠ '=')))⟩

def write (f : SpanField) : String :=
  f.name ++ f.value.elim "" fun value ↦ "=" ++ value.write

/-- The order of fields: first those without a value. -/
def order (a b : SpanField) : Ordering :=
  (compare a.value.isSome b.value.isSome).then <|
    (compare a.name b.name).then <|
      match a.value, b.value with
      | some v, some w => v.order w
      | _, _ => .eq

end SpanField

end Criteria
