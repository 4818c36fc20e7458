import Criteria.Formula.Json
import Criteria.Instant.Read

/-!
Rules: a text that is to be met, with an identifier, a description and two moments. The formula that
a rule may carry is a cache of what its text says.

A rule is written as a JSON object, and read from one or from an array of the members in written
order. Only the identifier and the text have to be there, and a rule without moments is made at the
moment of reading.
-/

set_option autoImplicit false
set_option relaxedAutoImplicit false

namespace Criteria

structure Rule where
  id : String
  text : String
  description : String
  formula : Option Formula
  createdAt : Instant
  updatedAt : Instant
  deriving BEq

def Instant.ofDraft (d : Json.Draft) : Except Mismatch Instant := do
  let s ← d.asTextOr "an RFC 3339 formatted date and time string"
  match read s with
  | .ok t => .ok t
  | .error fault => .error (.badInstant fault.message)

namespace Rule

/-- A rule without a formula has no member for it. -/
def toJson (r : Rule) : Json :=
  .object <|
    [("id", .text r.id), ("rule_string", .text r.text), ("description", .text r.description)] ++
      (r.formula.map fun f ↦ ("ast", f.toJson)).toList ++
      [("created_at", .text r.createdAt.write), ("updated_at", .text r.updatedAt.write)]

/-- The members of a rule read so far. -/
structure Members where
  id : Option String
  text : Option String
  description : Option String
  formula : Option (Option Formula)
  createdAt : Option Instant
  updatedAt : Option Instant

namespace Members

def empty : Members :=
  ⟨none, none, none, none, none, none⟩

/-- Takes a member. One with another name is passed over, whatever it holds. -/
def add (m : Members) (name : String) (d : Json.Draft) : Except Mismatch Members :=
  match name with
  | "id" => do return { m with id := ← Json.fill name Json.Draft.asText m.id d }
  | "rule_string" => do return { m with text := ← Json.fill name Json.Draft.asText m.text d }
  | "description" => do
    return { m with description := ← Json.fill name Json.Draft.asText m.description d }
  | "ast" => do
    let decode := Json.Draft.asOptional Formula.ofDraft
    return { m with formula := ← Json.fill name decode m.formula d }
  | "created_at" => do return { m with createdAt := ← Json.fill name Instant.ofDraft m.createdAt d }
  | "updated_at" => do return { m with updatedAt := ← Json.fill name Instant.ofDraft m.updatedAt d }
  | _ => do
    Json.wellFormed d.isComplete
    return m

/-- Takes a member of an object, whose name has to be a text. -/
def addNamed (m : Members) : Option String × Json.Draft → Except Mismatch Members
  | (none, _) => .error .malformed
  | (some name, d) => m.add name d

/-- The rule, with what may be left out filled in. -/
def complete (m : Members) (now : Instant) (id text : String) : Rule :=
  ⟨id, text, m.description.getD "", m.formula.join, m.createdAt.getD now, m.updatedAt.getD now⟩

def finish (m : Members) (now : Instant) : Except Mismatch Rule := do
  let id ← Json.require "id" m.id
  let text ← Json.require "rule_string" m.text
  return m.complete now id text

end Members

/-- The names of the members in written order. -/
def memberNames : List String :=
  ["id", "rule_string", "description", "ast", "created_at", "updated_at"]

/-- A rule from an array of its members, of which all but the first two may be left off the end. -/
def ofItems (now : Instant) (items : List Json.Draft) (closed : Bool) : Except Mismatch Rule := do
  let m ← (memberNames.zip items).foldlM (fun m (name, d) ↦ m.add name d) Members.empty
  Json.wellFormed closed
  match m.id, m.text with
  | some id, some text =>
    Json.wellFormed (items.length ≤ memberNames.length)
    return m.complete now id text
  | _, _ => .error (.wrongLength items.length "struct Rule with 6 elements")

def ofDraft (now : Instant) : Json.Draft → Except Mismatch Rule
  | .object members closed => do
    let m ← members.foldlM Members.addNamed Members.empty
    Json.wellFormed closed
    m.finish now
  | .array items closed => ofItems now items closed
  | d => .error (d.refusal "struct Rule")

/-- The rules of an array. Each one is read a nanosecond after the one before it. -/
def listOfDraft (now : Instant) : Json.Draft → Except Mismatch (List Rule)
  | .array items closed => do
    let rules ← items.zipIdx.mapM fun (d, i) ↦ ofDraft (now.later i) d
    Json.wellFormed closed
    return rules
  | d => .error (d.refusal "a sequence")

/-- The rule that a whole text holds, nested to any depth. The one moment of reading stands in for
both moments that may be left out, where a clock that is asked for each of them may give two. -/
def ofText (now : Instant) (s : String) : Except Mismatch Rule :=
  Json.decodeText none (ofDraft now) s

def listOfText (now : Instant) (s : String) : Except Mismatch (List Rule) :=
  Json.decodeText none (listOfDraft now) s

end Rule

end Criteria
