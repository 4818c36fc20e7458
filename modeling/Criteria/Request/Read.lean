import Criteria.Formula.Json
import Criteria.Request

/-!
Requests read from JSON: an object whose member `action` names what is asked for, or an array of the
members in written order. Members of other actions are passed over.
-/

set_option autoImplicit false
set_option relaxedAutoImplicit false

namespace Criteria

/-- The actions by name, in the order in which messages list them. -/
def Action.variants : List (String × Action) :=
  [Action.create, .list, .get, .update, .delete, .validate, .evaluate, .combine].map
    fun a ↦ (a.name, a)

/-- The names of an action's members in written order. A description may be left out. -/
def Action.memberNames : Action → List String
  | .create => ["rule_string", "description"]
  | .list => []
  | .get => ["rule_id"]
  | .update => ["rule_id", "rule_string", "description"]
  | .delete => ["rule_id"]
  | .validate => ["rule_string"]
  | .evaluate => ["rule_id", "data"]
  | .combine => ["rules"]

/-- The array of an action's members, as messages name it. -/
def Action.arrayName : Action → String
  | .create => "struct variant Request::Create with 2 elements"
  | .list => "unit variant Request::List"
  | .get => "struct variant Request::Get with 1 element"
  | .update => "struct variant Request::Update with 3 elements"
  | .delete => "struct variant Request::Delete with 1 element"
  | .validate => "struct variant Request::Validate with 1 element"
  | .evaluate => "struct variant Request::Evaluate with 2 elements"
  | .combine => "struct variant Request::Combine with 1 element"

namespace Member

def finish (id : Option String) (connective : Option (Option Connective)) :
    Except Mismatch Member := do
  let id ← Json.require "rule_id" id
  return (id, connective.join)

/-- Takes a member of the object that names a rule. -/
def add (m : Option String × Option (Option Connective)) (name : String) (v : Json) :
    Except Mismatch (Option String × Option (Option Connective)) :=
  match name with
  | "rule_id" => do return (← Json.fill name Json.asText m.1 v, m.2)
  | "operator" => do
    return (m.1, ← Json.fill name (Json.asOptional Connective.ofJson) m.2 v)
  | _ => .ok m

def ofJson : Json → Except Mismatch Member
  | .object members => do
    let m ← members.foldlM (fun m (name, v) ↦ add m name v) (none, none)
    finish m.1 m.2
  | .array [] => .error (.wrongLength 0 "struct CombinePart with 2 elements")
  | .array [id] => do return (← id.asText, none)
  | .array (id :: connective :: rest) => do
    let id ← id.asText
    let connective ← Json.asOptional Connective.ofJson connective
    Json.noMore 2 rest
    return (id, connective)
  | v => .error (.wrongType v.describe "struct CombinePart")

end Member

namespace Request

/-- The members of a request read so far. -/
structure Members where
  id : Option String
  text : Option String
  description : Option (Option String)
  data : Option Json
  rules : Option (List Member)

namespace Members

def empty : Members :=
  ⟨none, none, none, none, none⟩

/-- Only a new description may be null, which stands for the one that a rule has. -/
def asDescription (action : Action) (v : Json) : Except Mismatch (Option String) :=
  if action = .update then Json.asOptional Json.asText v else v.asText.map some

def add (action : Action) (m : Members) (name : String) (v : Json) : Except Mismatch Members :=
  if name ∈ action.memberNames then
    match name with
    | "rule_id" => do return { m with id := ← Json.fill name Json.asText m.id v }
    | "rule_string" => do return { m with text := ← Json.fill name Json.asText m.text v }
    | "description" => do
      return { m with description := ← Json.fill name (asDescription action) m.description v }
    | "data" => do return { m with data := ← Json.fill name .ok m.data v }
    | "rules" => do
      let asMembers (v : Json) : Except Mismatch (List Member) := do
        (← v.asItems).mapM Member.ofJson
      return { m with rules := ← Json.fill name asMembers m.rules v }
    | _ => .ok m
  else .ok m

/-- The request, in which the first member that is missing is named. -/
def finish (m : Members) : Action → Except Mismatch Request
  | .create => do
    let text ← Json.require "rule_string" m.text
    return .create text (m.description.join.getD "")
  | .list => .ok .list
  | .get => do return .get (← Json.require "rule_id" m.id)
  | .update => do
    let id ← Json.require "rule_id" m.id
    let text ← Json.require "rule_string" m.text
    return .update id text m.description.join
  | .delete => do return .delete (← Json.require "rule_id" m.id)
  | .validate => do return .validate (← Json.require "rule_string" m.text)
  | .evaluate => do
    let id ← Json.require "rule_id" m.id
    let data ← Json.require "data" m.data
    return .evaluate id data
  | .combine => do return .combine (← Json.require "rules" m.rules)

end Members

/-- A request from the items after its tag. -/
def ofItems (action : Action) (items : List Json) : Except Mismatch Request := do
  let names := action.memberNames
  let m ← (names.zip items).foldlM (fun m (name, v) ↦ m.add action name v) Members.empty
  match m.finish action with
  | .error _ => .error (.wrongLength items.length action.arrayName)
  | .ok request => do
    Json.noMore names.length (items.drop names.length)
    return request

/-- A request from the members beside its tag. -/
def ofMembers (action : Action) (members : List (String × Json)) : Except Mismatch Request := do
  let m ← members.foldlM (fun m (name, v) ↦ m.add action name v) Members.empty
  m.finish action

def ofDraft (d : Json.Draft) : Except Mismatch Request := do
  match ← d.tagged "action" "internally tagged enum Request" Action.variants with
  | (action, .members members) => ofMembers action members
  | (action, .items items) => ofItems action items

/-- The request that a whole text holds. -/
def ofText (s : String) : Except Mismatch Request :=
  Json.decodeText (some Json.nestingLimit) ofDraft s

end Request

end Criteria
