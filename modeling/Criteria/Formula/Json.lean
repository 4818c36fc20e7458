import Criteria.Formula
import Criteria.Json.Decode

/-!
Formulas as JSON: objects whose member `type` tells a condition from a join. What is written reads
back; a reader also takes the members in any order, or an array of them in the written order, and
inside another formula the place of the type for its name.
-/

set_option autoImplicit false
set_option relaxedAutoImplicit false

namespace Criteria

namespace Literal

def toJson : Literal → Json
  | .number x => .real x
  | .text s => .text s

def ofJson : Json → Except Mismatch Literal
  | .text s => .ok (.text s)
  | v =>
    match v.asNumber? with
    | some x => .ok (.number x)
    | none => .error (.noVariant "Literal")

end Literal

def Comparison.ofJson (v : Json) : Except Mismatch Comparison := do
  let s ← v.asText
  match Comparison.ofSymbol? s with
  | some op => .ok op
  | none => .error (.unknownOperator s)

/-- The names of the connectives, as a choice. -/
def Connective.variants : List (String × Connective) :=
  [("AND", .and), ("OR", .or)]

def Connective.ofName : String → Except Mismatch Connective :=
  Json.variantNamed variants

/-- A connective is its name, or an object whose only member has that name and holds nothing. -/
def Connective.ofJson : Json → Except Mismatch Connective
  | .text s => ofName s
  | .object [(name, v)] => do
    let op ← ofName name
    match v with
    | .null | .object [] => .ok op
    | v => .error (.wrongType v.describe "unit")
  | .object _ => .error (.wrongValue "map" "map with a single key")
  | v => .error (.wrongType v.describe "string or map")

namespace Formula

def toJson : Formula → Json
  | .test c =>
    .object [("type", .text "comparison"), ("field", .text c.field),
      ("operator", .text c.comparison.symbol), ("value", c.literal.toJson)]
  | .join connective left right =>
    .object [("type", .text "logical"), ("operator", .text connective.symbol),
      ("left", left.toJson), ("right", right.toJson)]

inductive Variant where
  | test
  | join

def variants : List (String × Variant) :=
  [("comparison", .test), ("logical", .join)]

/-- Formulas, as messages name them. -/
def typeName : String :=
  "internally tagged enum RuleNode"

/-- The members of a condition read so far. -/
structure TestMembers where
  field : Option String
  comparison : Option Comparison
  literal : Option Literal

def TestMembers.add (m : TestMembers) (name : String) (v : Json) : Except Mismatch TestMembers :=
  match name with
  | "field" => do return { m with field := ← Json.fill name Json.asText m.field v }
  | "operator" => do
    return { m with comparison := ← Json.fill name Comparison.ofJson m.comparison v }
  | "value" => do return { m with literal := ← Json.fill name Literal.ofJson m.literal v }
  | _ => .ok m

def TestMembers.finish (m : TestMembers) : Except Mismatch Formula := do
  let field ← Json.require "field" m.field
  let comparison ← Json.require "operator" m.comparison
  let literal ← Json.require "value" m.literal
  return .test ⟨field, comparison, literal⟩

def testOfMembers (members : List (String × Json)) : Except Mismatch Formula := do
  let m ← members.foldlM (fun m (name, v) ↦ m.add name v) (⟨none, none, none⟩ : TestMembers)
  m.finish

/-- A condition from the items after its tag. -/
def testOfItems (items : List Json) : Except Mismatch Formula :=
  let short (count : Nat) : Except Mismatch Formula :=
    .error (.wrongLength count "struct variant RuleNode::Comparison with 3 elements")
  match items with
  | [] => short 0
  | field :: items => do
    let field ← field.asText
    match items with
    | [] => short 1
    | comparison :: items => do
      let comparison ← Comparison.ofJson comparison
      match items with
      | [] => short 2
      | literal :: items => do
        let literal ← Literal.ofJson literal
        Json.noMore 3 items
        return .test ⟨field, comparison, literal⟩

/-- The members of a join read so far. -/
structure JoinMembers where
  connective : Option Connective
  left : Option Formula
  right : Option Formula

def JoinMembers.empty : JoinMembers :=
  ⟨none, none, none⟩

def JoinMembers.finish (m : JoinMembers) : Except Mismatch Formula := do
  let connective ← Json.require "operator" m.connective
  let left ← Json.require "left" m.left
  let right ← Json.require "right" m.right
  return .join connective left right

def shortJoin (count : Nat) : Except Mismatch Formula :=
  .error (.wrongLength count "struct variant RuleNode::Logical with 3 elements")

mutual

def ofJson : Json → Except Mismatch Formula
  | .object members => do
    match ← Json.tagOf "type" variants members with
    | .test => testOfMembers members
    | .join => joinOfMembers .empty members
  | .array [] => .error (.missing "type")
  | .array (tag :: items) => do
    match ← Json.asVariant variants tag with
    | .test => testOfItems items
    | .join => joinOfItems items
  | v => .error (.wrongType v.describe typeName)

def joinOfMembers (m : JoinMembers) : List (String × Json) → Except Mismatch Formula
  | [] => m.finish
  | (name, v) :: members =>
    match name with
    | "operator" => do
      let connective ← Json.fill name Connective.ofJson m.connective v
      joinOfMembers { m with connective } members
    | "left" =>
      match m.left with
      | some _ => .error (.repeated name)
      | none => do joinOfMembers { m with left := some (← ofJson v) } members
    | "right" =>
      match m.right with
      | some _ => .error (.repeated name)
      | none => do joinOfMembers { m with right := some (← ofJson v) } members
    | _ => joinOfMembers m members

/-- A join from the items after its tag. -/
def joinOfItems : List Json → Except Mismatch Formula
  | [] => shortJoin 0
  | connective :: items => do
    let connective ← Connective.ofJson connective
    match items with
    | [] => shortJoin 1
    | left :: items => do
      let left ← ofJson left
      match items with
      | [] => shortJoin 2
      | right :: items => do
        let right ← ofJson right
        Json.noMore 3 items
        return .join connective left right

end

/-- The formula that is the whole value of a text or of a member. -/
def ofDraft (d : Json.Draft) : Except Mismatch Formula := do
  match ← d.tagged "type" typeName variants with
  | (.test, .members members) => testOfMembers members
  | (.test, .items items) => testOfItems items
  | (.join, .members members) => joinOfMembers .empty members
  | (.join, .items items) => joinOfItems items

/-- The formula that a whole text holds, nested to any depth. -/
def ofText (s : String) : Except Mismatch Formula :=
  Json.decodeText none ofDraft s

end Formula

end Criteria
