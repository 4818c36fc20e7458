/-!
Trees of settings, and what holds when a value is laid over what a tree has at a path. Tables are
merged name by name, and anything else is replaced. A path leads into tables by names and into lists
by numbers.
-/

set_option autoImplicit false
set_option relaxedAutoImplicit false

namespace Criteria.Settings

inductive Tree where
  /-- An item that a list has only because a later one is given. -/
  | nothing
  | flag (b : Bool)
  | integer (n : Int)
  | real (x : Float)
  | text (s : String)
  | list (items : List Tree)
  | table (entries : List (String × Tree))
  deriving BEq, Inhabited

/-- A table: names in the order in which they were first given, each once. -/
abbrev Table : Type :=
  List (String × Tree)

namespace Table

def get? (t : Table) (name : String) : Option Tree :=
  t.lookup name

/-- Gives a name a value, at its old place if it has one. -/
def put (t : Table) (name : String) (v : Tree) : Table :=
  match t with
  | [] => [(name, v)]
  | (other, w) :: rest =>
    if other = name then (name, v) :: rest else (other, w) :: Table.put rest name v

end Table

namespace Tree

/-- The names below a tree; only a table has any. -/
def entries : Option Tree → Table
  | some (.table t) => t
  | _ => []

mutual

/-- What holds when a tree is laid over what is there. -/
def above (lower : Option Tree) : Tree → Tree
  | .table upper => .table (aboveTable (entries lower) upper)
  | v => v

def aboveTable (lower : Table) : Table → Table
  | [] => lower
  | (name, v) :: upper => aboveTable (lower.put name (above (lower.get? name) v)) upper

end

/-- The items of a tree; only a list has any. -/
def items : Option Tree → List Tree
  | some (.list vs) => vs
  | _ => []

/-- The items made enough to have one of this number, and its place among them. Negative numbers
count from the end, and more items are put in front for them. -/
def reach (vs : List Tree) (n : Int) : List Tree × Nat :=
  if 0 ≤ n then (vs ++ List.replicate (n.toNat + 1 - vs.length) .nothing, n.toNat)
  else (List.replicate (n.natAbs - vs.length) .nothing ++ vs, vs.length - n.natAbs)

end Tree

/-- A step of a path. -/
inductive Place where
  | name (s : String)
  | item (n : Int)
  deriving DecidableEq, Repr

abbrev Path : Type :=
  List Place

namespace Tree

/-- What holds when a value is laid over what is there at a path. -/
def put (v : Tree) (lower : Option Tree) : Path → Tree
  | [] => v.above lower
  | .name s :: path =>
    let t := entries lower
    .table (t.put s (v.put (t.get? s) path))
  | .item n :: path =>
    let (vs, i) := reach (items lower) n
    .list (vs.set i (v.put vs[i]? path))

/-- The value at a path. -/
def get? (v : Tree) : Path → Option Tree
  | [] => some v
  | .name s :: path => ((entries (some v)).get? s).bind fun w ↦ get? w path
  | .item n :: path =>
    let (vs, i) := reach (items (some v)) n
    vs[i]?.bind fun w ↦ get? w path

end Tree

end Criteria.Settings
