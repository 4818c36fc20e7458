import Criteria.Operator
import Criteria.Json

/-!
What a caller may ask for: to keep rules, to look at them, and to decide by them.
-/

set_option autoImplicit false
set_option relaxedAutoImplicit false

namespace Criteria

inductive Action where
  | create
  | list
  | get
  | update
  | delete
  | validate
  | evaluate
  | combine
  deriving DecidableEq, Repr

def Action.name : Action → String
  | .create => "create"
  | .list => "list"
  | .get => "get"
  | .update => "update"
  | .delete => "delete"
  | .validate => "validate"
  | .evaluate => "evaluate"
  | .combine => "combine"

/-- A rule named in a combination, and the connective between it and the next one. -/
abbrev Member : Type :=
  String × Option Connective

inductive Request where
  | create (text description : String)
  | list
  | get (id : String)
  | update (id text : String) (description : Option String)
  | delete (id : String)
  | validate (text : String)
  | evaluate (id : String) (data : Json)
  | combine (members : List Member)
  deriving BEq

def Request.action : Request → Action
  | .create .. => .create
  | .list => .list
  | .get _ => .get
  | .update .. => .update
  | .delete _ => .delete
  | .validate _ => .validate
  | .evaluate .. => .evaluate
  | .combine _ => .combine

end Criteria
