import Criteria.Settings.Layer
import Criteria.Settings.Toml.Entries
import Criteria.Settings.Toml.Scalar
import Criteria.Settings.Toml.Token

/-!
The table that a configuration file spells, read one token at a time. A line is empty, opens a
section or gives one value; nothing may be given twice. Arrays and tables between braces may be
spread over lines.
-/

set_option autoImplicit false
set_option relaxedAutoImplicit false

namespace Criteria.Settings.Toml

/-- A part of a path as written: a name, or a dot. -/
inductive Step where
  | name (s : String)
  | dot
  deriving DecidableEq

/-- The names and dots of a word; the names are of letters, digits, underscores and hyphens. -/
def stepsOf? (cs : List Char) : Option (List Step) :=
  if cs.all fun c ↦ Layer.isNameChar c || c = '.' then
    some (((cs.splitOn '.').intersperse ['.']).filterMap fun run ↦
      if run = [] then none
      else if run = ['.'] then some .dot
      else some (.name (String.ofList run)))
  else none

/-- The names of a path, which single dots separate. -/
def pathOf? : List Step → Option (List String)
  | [.name s] => some [s]
  | .name s :: .dot :: rest => (pathOf? rest).map (s :: ·)
  | _ => none

/-- The steps with those of one more token. -/
def more? (steps : List Step) : Token → Option (List Step)
  | .word cs => (stepsOf? cs).map (steps ++ ·)
  | .text cs => some (steps ++ [.name (String.ofList cs)])
  | _ => none

/-- What waits for a value: the path of a line, an array with its items in reverse, or a path in a
table between braces. -/
inductive Frame where
  | line (path : List String)
  | array (items : List Tree)
  | braces (entries : Entries) (path : List String)

/-- What may follow. -/
inductive Focus where
  | lineStart
  | lineEnd
  | section (several : Bool) (steps : List Step)
  | sectionEnd (path : List String)
  | path (steps : List Step)
  | innerPath (frames : List Frame) (entries : Entries) (steps : List Step)
  | value (frames : List Frame)
  | complete (frames : List Frame) (v : Tree)

/-- The entries read so far and the path of the section that is open. -/
structure Reader where
  entries : Entries
  prior : List String
  focus : Focus

/-- How many arrays and tables between braces may be open at once. -/
def nestingLimit : Nat :=
  80

namespace Reader

def start : Reader :=
  ⟨[], [], .lineStart⟩

/-- Opens the section of a path. -/
def openSection (r : Reader) (several : Bool) (path : List String) : Option Reader := do
  let name ← path.getLast?
  let entries ← r.entries.inSection? (Entries.open? several name) path.dropLast
  return ⟨entries, path, .lineEnd⟩

/-- Gives a path below the open section a value. -/
def define (r : Reader) (path : List String) (v : Tree) : Option Reader := do
  let entries ← r.entries.inSection? (fun t ↦ t.define? path v) r.prior
  return { r with entries, focus := .lineStart }

/-- A token inside the brackets of a section. -/
def sectionStep (r : Reader) (several : Bool) (steps : List Step) (t : Token) : Option Reader :=
  match t, several, steps with
  | .openBracket true, false, [] => some { r with focus := .section true [] }
  | .closeBracket _, false, steps => (pathOf? steps).bind (r.openSection false)
  | .closeBracket _, true, steps =>
    (pathOf? steps).map fun path ↦ { r with focus := .sectionEnd path }
  | t, several, steps => (more? steps t).map fun steps ↦ { r with focus := .section several steps }

/-- A token where a name of a table between braces may stand. -/
def innerPathStep (r : Reader) (frames : List Frame) (entries : Entries) (steps : List Step)
    (t : Token) : Option Reader :=
  match t, steps with
  | .newline, [] => some r
  | .closeBrace, [] => some { r with focus := .complete frames (.table entries.toTable) }
  | .equals, steps =>
    (pathOf? steps).map fun path ↦ { r with focus := .value (.braces entries path :: frames) }
  | t, steps => (more? steps t).map fun steps ↦ { r with focus := .innerPath frames entries steps }

/-- A token where a value has to follow. -/
def valueStep (r : Reader) (frames : List Frame) (t : Token) : Option Reader :=
  match t, frames with
  | .word cs, _ => (value? cs).map fun v ↦ { r with focus := .complete frames v }
  | .text cs, _ | .block cs, _ =>
    some { r with focus := .complete frames (.text (String.ofList cs)) }
  | .openBracket _, _ =>
    if nestingLimit < frames.length then none
    else some { r with focus := .value (.array [] :: frames) }
  | .openBrace, _ =>
    if nestingLimit < frames.length then none
    else some { r with focus := .innerPath frames [] [] }
  | .closeBracket _, .array items :: frames =>
    some { r with focus := .complete frames (.list items.reverse) }
  | .newline, .array _ :: _ => some r
  | _, _ => none

/-- A token after a value. -/
def completeStep (r : Reader) (v : Tree) (t : Token) : List Frame → Option Reader
  | [] => none
  | .line path :: _ => if t = .newline then r.define path v else none
  | .array items :: frames =>
    match t with
    | .newline => some r
    | .comma => some { r with focus := .value (.array (v :: items) :: frames) }
    | .closeBracket _ => some { r with focus := .complete frames (.list (v :: items).reverse) }
    | _ => none
  | .braces entries path :: frames =>
    match t with
    | .newline => some r
    | .comma =>
      (entries.define? path v).map fun entries ↦ { r with focus := .innerPath frames entries [] }
    | .closeBrace =>
      (entries.define? path v).map fun entries ↦
        { r with focus := .complete frames (.table entries.toTable) }
    | _ => none

def step (r : Reader) (t : Token) : Option Reader :=
  match r.focus with
  | .lineStart =>
    match t with
    | .newline => some r
    | .openBracket _ => some { r with focus := .section false [] }
    | t => (more? [] t).map fun steps ↦ { r with focus := .path steps }
  | .lineEnd => if t = .newline then some { r with focus := .lineStart } else none
  | .section several steps => r.sectionStep several steps t
  | .sectionEnd path => if t = .closeBracket true then r.openSection true path else none
  | .path steps =>
    if t = .equals then (pathOf? steps).map fun path ↦ { r with focus := .value [.line path] }
    else (more? steps t).map fun steps ↦ { r with focus := .path steps }
  | .innerPath frames entries steps => r.innerPathStep frames entries steps t
  | .value frames => r.valueStep frames t
  | .complete frames v => r.completeStep v t frames

end Reader

end Toml

/-- The table that a text spells. A line's end is put behind the last line. -/
def Table.ofToml? (s : String) : Option Table := do
  let tokens ← Toml.Token.ofChars? s.toList
  let r ← (tokens ++ [Toml.Token.newline]).foldlM Toml.Reader.step .start
  match r.focus with
  | .lineStart => some r.entries.toTable
  | _ => none

end Criteria.Settings
