import Criteria.Settings.Layer

/-!
Settings given by environment variables. The name after the common beginning is the path, two
underscores standing between its parts; the value is read as what it looks like.
-/

set_option autoImplicit false
set_option relaxedAutoImplicit false

namespace Criteria.Settings

/-- A value without quotes: a truth value, a number, or else a text. -/
def Tree.ofPlain (s : String) : Tree :=
  match s.toLower with
  | "true" => .flag true
  | "false" => .flag false
  | _ =>
    match integer? s.toList with
    | some n => .integer n
    | none =>
      match numeral? s.toList with
      | some x => .real x
      | none => .text s

namespace Layer

/-- How the names of variables begin, in small letters. -/
def variableStart : List Char :=
  "eligibility_".toList

/-- The small form of a letter, for the letters that have one in ASCII; one of them is the Kelvin
sign. -/
def smallChar (c : Char) : Char :=
  if c = '\u212a' then 'k' else c.toLower

/-- Two underscores become a dot. -/
def dotted : List Char → List Char
  | '_' :: '_' :: rest => '.' :: dotted rest
  | c :: rest => c :: dotted rest
  | [] => []

def ofVariable? (name value : String) : Option (Path × Tree) :=
  let cs := name.toList.map smallChar
  if variableStart.isPrefixOf cs then
    some (pathOf (String.ofList (dotted (cs.drop variableStart.length))), Tree.ofPlain value)
  else none

/-- The layer of the variables, in the order in which they are given. Of two that touch one path, as
one for `a` and one for `a.b` do, the later one counts here. A reader that collects its keys in a
hash map takes them in no fixed order. -/
def ofVariables (vars : List (String × String)) : Layer :=
  vars.filterMap fun (name, value) ↦ ofVariable? name value

end Layer

end Criteria.Settings
