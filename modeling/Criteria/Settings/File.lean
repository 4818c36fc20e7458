import Criteria.Json.Decode
import Criteria.Settings.Toml.Read

/-!
Files of settings: the names that a file may have, and the layer that its text spells. Two formats
are read, and a file in another one counts as malformed.
-/

set_option autoImplicit false
set_option relaxedAutoImplicit false

namespace Criteria.Settings

namespace Tree

/-- The integer if it has 64 bits, and else the number nearest to it. -/
def ofInt (n : Int) : Tree :=
  let bound : Int := Nat.pow 2 63
  if -bound ≤ n ∧ n < bound then .integer n else .real (Decimal.toFloat (n < 0) ⟨n.natAbs, 0⟩)

mutual

def ofJson : Json → Tree
  | .null => .nothing
  | .bool b => .flag b
  | .int n => ofInt n
  | .real x => .real x
  | .text s => .text s
  | .array items => .list (ofItems items)
  | .object members => .table (ofMembers [] members)

def ofItems : List Json → List Tree
  | [] => []
  | item :: items => ofJson item :: ofItems items

/-- A table with the members added to it. Of two members of one name the later one counts. -/
def ofMembers (t : Table) : List (String × Json) → Table
  | [] => t
  | (name, v) :: members => ofMembers (t.put name (ofJson v)) members

end

end Tree

/-- The notation of a file. -/
inductive Format where
  | toml
  | json
  /-- Any other notation, such as YAML. Settings are kept in TOML, and a file with one more ending
  is looked for only where the file of the plain name is missing. The notations of these endings,
  JSON apart, are left out: a file in one of them counts as malformed here, while a library for
  settings may be able to read it. -/
  | unknown
  deriving DecidableEq, Repr

/-- The endings that a name may have besides its own one, with the format that each tells. -/
def endings : List (String × Format) :=
  [("toml", .toml), ("json", .json), ("json5", .unknown), ("yaml", .unknown), ("yml", .unknown),
    ("ini", .unknown), ("ron", .unknown), ("corn", .unknown)]

/-- The names that a file may have. -/
def aliases (name : String) : List (String × Format) :=
  (name, .toml) :: endings.map fun (ending, format) ↦ (name ++ "." ++ ending, format)

/-- The table that a text spells. -/
def Table.ofText? (format : Format) (s : String) : Option Table :=
  match format with
  | .toml => Table.ofToml? s
  | .json =>
    match Json.read? (some Json.nestingLimit) s with
    | some (.object members) => some (Tree.ofMembers [] members)
    | _ => none
  | .unknown => none

/-- Whether a name is all ending. -/
def isEnding (name : String) : Bool :=
  "/.toml".toList.isSuffixOf ('/' :: name.toList)

/-- The layer of the file of a name, or of one of its other names. Without a file it is empty, as
with a file whose name is all ending. The text may begin with a byte order mark. -/
def fileLayer? (contents : String → Option String) (name : String) : Option Layer :=
  match (aliases name).find? fun (other, _) ↦ (contents other).isSome with
  | none => some []
  | some (found, format) =>
    if isEnding found then some []
    else do
      let cs := Toml.Token.withoutMark (← contents found).toList
      return .ofTable (← Table.ofText? format (String.ofList cs))

end Criteria.Settings
