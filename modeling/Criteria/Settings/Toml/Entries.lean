import Criteria.Settings.Tree

/-!
The entries of a configuration file as they are read. A table remembers how it came to be, since
that decides what may still be added: a table has one section at most, and a value stays as it is.
-/

set_option autoImplicit false
set_option relaxedAutoImplicit false

namespace Criteria.Settings.Toml

/-- How a table came to be: it has a section, the section of a table inside it made it, or a name
with dots did. -/
inductive Origin where
  | section
  | passed
  | dotted
  deriving DecidableEq, Repr

/-- What a name stands for: a value that is complete, a table, or tables in reverse. -/
inductive Entry where
  | value (v : Tree)
  | table (origin : Origin) (entries : List (String × Entry))
  | tables (items : List Entry)

abbrev Entries : Type :=
  List (String × Entry)

namespace Entry

mutual

def toTree : Entry → Tree
  | .value v => v
  | .table _ entries => .table (entriesToTrees entries)
  | .tables items => .list (itemsToTrees [] items)

def entriesToTrees : List (String × Entry) → List (String × Tree)
  | [] => []
  | (name, entry) :: rest => (name, entry.toTree) :: entriesToTrees rest

/-- The trees of tables in reverse, in front of those that follow. -/
def itemsToTrees (following : List Tree) : List Entry → List Tree
  | [] => following
  | item :: rest => itemsToTrees (item.toTree :: following) rest

end

end Entry

namespace Entries

def toTable (t : Entries) : Table :=
  Entry.entriesToTrees t

/-- Gives a name an entry, at its old place if it has one. -/
def put (t : Entries) (name : String) (entry : Entry) : Entries :=
  match t with
  | [] => [(name, entry)]
  | (other, old) :: rest =>
    if other = name then (name, entry) :: rest else (other, old) :: Entries.put rest name entry

/-- Changes the table at the path of a section. Of several tables the last one is meant. -/
def inSection? (change : Entries → Option Entries) (t : Entries) : List String → Option Entries
  | [] => change t
  | name :: path =>
    match t.lookup name with
    | none => do return t.put name (.table .passed (← inSection? change [] path))
    | some (.table origin u) => do
      return t.put name (.table origin (← inSection? change u path))
    | some (.tables (.table origin u :: items)) => do
      return t.put name (.tables (.table origin (← inSection? change u path) :: items))
    | some _ => none

/-- Changes the table at the path of a name with dots. It leads through no section, and the table at
its end has come to be by such names only. -/
def atDots? (change : Entries → Option Entries) (t : Entries) : List String → Option Entries
  | [] => change t
  | name :: path =>
    match t.lookup name with
    | none => do return t.put name (.table .dotted (← atDots? change [] path))
    | some (.table origin u) =>
      if origin = .section ∨ (path = [] ∧ origin = .passed) then none
      else do return t.put name (.table origin (← atDots? change u path))
    | some (.tables (.table origin u :: items)) =>
      if path = [] then none
      else do return t.put name (.tables (.table origin (← atDots? change u path) :: items))
    | some _ => none

/-- Gives a name without an entry one. -/
def add? (name : String) (entry : Entry) (t : Entries) : Option Entries :=
  if (t.lookup name).isSome then none else some (t.put name entry)

/-- Begins the section of a name, or that of one more table of the name. -/
def open? (several : Bool) (name : String) (t : Entries) : Option Entries :=
  match several, t.lookup name with
  | false, none => some (t.put name (.table .section []))
  | false, some (.table .passed u) => some (t.put name (.table .section u))
  | true, none => some (t.put name (.tables [.table .section []]))
  | true, some (.tables items) => some (t.put name (.tables (.table .section [] :: items)))
  | _, _ => none

/-- Gives the path of a name with dots a value. -/
def define? (t : Entries) (path : List String) (v : Tree) : Option Entries := do
  let name ← path.getLast?
  t.atDots? (add? name (.value v)) path.dropLast

end Entries

end Criteria.Settings.Toml
