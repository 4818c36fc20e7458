import Criteria.Combination
import Criteria.Compiled

/-!
The rules in force, one rule to an identifier. A call that fails answers a fault and no store, so
the caller goes on with the store it had.
-/

set_option autoImplicit false
set_option relaxedAutoImplicit false

namespace Criteria

structure Store where
  compiler : Compiler
  entries : List Compiled

namespace Store

def ofLimits (limits : Limits) : Store :=
  ⟨.ofLimits limits, []⟩

def limits (s : Store) : Limits :=
  s.compiler.limits

def get? (s : Store) (id : String) : Option Compiled :=
  s.entries.find? (·.id == id)

def contains (s : Store) (id : String) : Bool :=
  (s.get? id).isSome

def size (s : Store) : Nat :=
  s.entries.length

def isEmpty (s : Store) : Bool :=
  s.entries.isEmpty

def erase (s : Store) (id : String) : Store :=
  { s with entries := s.entries.filter (·.id != id) }

def clear (s : Store) : Store :=
  { s with entries := [] }

/-- The rule with this identifier, which has to be in force. -/
def find (s : Store) (id : String) : Except Fault Compiled :=
  match s.get? id with
  | some c => .ok c
  | none => .error (.unknownRule id)

/-- Puts a rule in force, in place of one with the same identifier. -/
def load (s : Store) (r : Rule) : Except Fault (Rule × Store) := do
  let (c, compiler) ← s.compiler.compile r
  return (c.toRule, ⟨compiler, c :: (s.erase c.id).entries⟩)

/-- Puts the rules in force that are accepted, and lists their identifiers. -/
def loadAll (s : Store) : List Rule → List String × Store
  | [] => ([], s)
  | r :: rules =>
    match s.load r with
    | .error _ => s.loadAll rules
    | .ok (_, s) =>
      let (ids, s) := s.loadAll rules
      (r.id :: ids, s)

/-- Makes a rule of a text, whose blanks at the ends are dropped. -/
def create (s : Store) (id : String) (now : Instant) (text description : String) :
    Except Fault (Rule × Store) :=
  s.load ⟨id, Text.trim text, description, none, now, now⟩

/-- Gives a rule another text, and another description if there is one. -/
def update (s : Store) (now : Instant) (id text : String) (description : Option String) :
    Except Fault (Rule × Store) := do
  let c ← s.find id
  s.load { c.rule with
    text := Text.trim text
    description := description.getD c.rule.description
    formula := none
    updatedAt := now }

def delete (s : Store) (id : String) : Except Fault (Rule × Store) := do
  let c ← s.find id
  return (c.toRule, s.erase id)

/-- The texts of rules in force, with the connectives that follow them. -/
def parts (s : Store) (members : List (String × Option Connective)) : Except Fault (List Part) :=
  members.mapM fun (id, connective) ↦ do
    return ⟨(← s.find id).rule.text, connective⟩

/-- Makes a rule that joins the texts of rules in force. -/
def combine (s : Store) (id : String) (now : Instant)
    (members : List (String × Option Connective)) : Except Fault (Rule × Store) := do
  let text ← Part.combine s.limits (← s.parts members)
  s.create id now text ("由 " ++ toString members.length ++ " 条规则组合生成")

end Store

end Criteria
