import Criteria.Text.Alphanumeric

/-!
Which texts are patterns, that is regular expressions: groups and classes are closed, what is to be
repeated is there, and every escape has a meaning. A pattern has no closing brace, so that an
opening brace stands for itself in a class and nowhere else.
-/

set_option autoImplicit false
set_option relaxedAutoImplicit false

namespace Criteria.Pattern

/-- What an item of a class stands for: one character, or more than one. -/
inductive Item where
  | char (c : Char)
  | set
  deriving DecidableEq

/-- What the characters read last belong to. -/
inductive Mode where
  | outside
  | repeated
  | groupStart
  | groupKind
  | namedKind
  | name (done : List Char)
  | flags (seen : List Char) (off : Bool) (dangling : Bool)
  | escape
  | code (missing value : Nat)
  | property
  | classStart (negatable empty : Bool)
  | inside
  | after (item : Item)
  | dash (item : Item)
  | doubled (c : Char)

/-- A pattern read up to some place. Every open group keeps whether texts were taken as ASCII before
it, `depth` counts the classes that are open, and `low` is where an unfinished range begins. -/
structure Scanner where
  groups : List Bool
  names : List (List Char)
  ascii : Bool
  operand : Bool
  depth : Nat
  low : Option Char
  mode : Mode

def flagLetters : List Char :=
  ['i', 'm', 's', 'u', 'U', 'R', 'x']

/-- The letters of the general categories, in small letters. -/
def categoryLetters : List Char :=
  ['c', 'l', 'm', 'n', 'p', 's', 'z']

/-- Whether a backslash makes the character stand for itself. -/
def isEscapable (c : Char) : Bool :=
  c.toNat < 0x80 && !c.isAlphanum && c ≠ '<' && c ≠ '>'

/-- Whether a group's name may begin with the character, or hold it further on. -/
def isNameChar (first : Bool) (c : Char) : Bool :=
  if first then c = '_' || Text.isAlphabetic c
  else c = '_' || c = '.' || c = '[' || c = ']' || Text.isAlphanumeric c

namespace Scanner

def start : Scanner :=
  ⟨[], [], false, false, 0, none, .outside⟩

/-- Where ASCII is asked for, nothing may match a part of another character. -/
def unlessAscii (s : Scanner) (t : Option Scanner) : Option Scanner :=
  if s.ascii then none else t

/-- An item is complete. -/
def put (s : Scanner) (item : Item) : Option Scanner :=
  if s.depth = 0 then some { s with operand := true, mode := .outside }
  else
    match s.low, item with
    | none, item => some { s with mode := .after item }
    | some low, .char c => if low ≤ c then some { s with low := none, mode := .inside } else none
    | some _, .set => none

/-- An opening parenthesis. -/
def openGroup (s : Scanner) : Scanner :=
  { s with groups := s.ascii :: s.groups, operand := false, mode := .groupStart }

/-- A character outside classes, which belongs to nothing before it. -/
def outsideStep (s : Scanner) (c : Char) : Option Scanner :=
  match c with
  | '(' => some s.openGroup
  | ')' =>
    match s.groups with
    | [] => none
    | ascii :: groups => some { s with groups, ascii, operand := true, mode := .outside }
  | '|' => some { s with operand := false, mode := .outside }
  | '[' => some { s with depth := 1, mode := .classStart true true }
  | '*' | '+' | '?' => if s.operand then some { s with mode := .repeated } else none
  | '\x7b' => none
  | '\\' => some { s with mode := .escape }
  | '.' => s.unlessAscii (s.put .set)
  | c => s.put (.char c)

/-- A character in a class, where an item may begin. -/
def insideStep (s : Scanner) (c : Char) : Option Scanner :=
  match c with
  | ']' =>
    some { s with
      depth := s.depth - 1, operand := true, mode := if s.depth = 1 then .outside else .inside }
  | '[' => some { s with depth := s.depth + 1, mode := .classStart true true }
  | '&' | '~' | '-' => some { s with mode := .doubled c }
  | '\\' => some { s with mode := .escape }
  | c => s.put (.char c)

/-- The character after one of the signs that, written twice, join two classes. -/
def doubledStep (s : Scanner) (sign c : Char) : Option Scanner :=
  if c = sign then some { s with mode := .inside }
  else if c = '-' then some { s with mode := .dash (.char sign) }
  else s.insideStep c

/-- The character after a hyphen that stands behind an item. -/
def dashStep (s : Scanner) (item : Item) (c : Char) : Option Scanner :=
  match c, item with
  | ']', _ => s.insideStep c
  | '-', _ => some { s with mode := .inside }
  | _, .set => none
  | '\\', .char low => some { s with low := some low, mode := .escape }
  | c, .char low => { s with low := some low }.put (.char c)

/-- The first characters of a class: a sign that negates it, hyphens, a closing bracket that stands
for itself. -/
def classStep (s : Scanner) (negatable empty : Bool) (c : Char) : Option Scanner :=
  if c = '^' ∧ negatable then s.unlessAscii (some { s with mode := .classStart false true })
  else if c = '-' then some { s with mode := .classStart false false }
  else if c = ']' ∧ empty then some { s with mode := .inside }
  else s.insideStep c

/-- The character after a backslash. Classes hold no positions. -/
def escapeStep (s : Scanner) (c : Char) : Option Scanner :=
  match c with
  | 'x' => some { s with mode := .code 2 0 }
  | 'u' => some { s with mode := .code 4 0 }
  | 'U' => some { s with mode := .code 8 0 }
  | 'p' | 'P' => s.unlessAscii (some { s with mode := .property })
  | 'd' | 's' | 'w' => s.put .set
  | 'D' | 'S' | 'W' => s.unlessAscii (s.put .set)
  | 'a' => s.put (.char '\x07')
  | 't' => s.put (.char '\t')
  | 'n' => s.put (.char '\n')
  | 'v' => s.put (.char '\x0b')
  | 'f' => s.put (.char '\x0c')
  | 'r' => s.put (.char '\r')
  | 'A' | 'z' => if s.depth = 0 then s.put .set else none
  | 'b' | 'B' | '<' | '>' => if s.depth = 0 ∧ s.ascii then s.put .set else none
  | c => if isEscapable c then s.put (.char c) else none

/-- One more digit of a code point, of which `missing` are missing with it. -/
def codeStep (s : Scanner) (missing value digit : Nat) : Option Scanner :=
  let value := 16 * value + digit
  if missing = 1 then
    if h : value.isValidChar then
      if s.ascii ∧ 0x80 ≤ value then none else s.put (.char (Char.ofNatAux value h))
    else none
  else some { s with mode := .code (missing - 1) value }

/-- A group without a name begins. -/
def beginGroup (s : Scanner) : Scanner :=
  { s with operand := false, mode := .outside }

def nameStep (s : Scanner) (done : List Char) (c : Char) : Option Scanner :=
  if c = '>' then
    if done = [] ∨ done ∈ s.names then none
    else some { s.beginGroup with names := done :: s.names }
  else if isNameChar (done = []) c then some { s with mode := .name (c :: done) }
  else none

/-- A character of the flags of a group, or of flags that hold for the rest of the group around
them. -/
def flagStep (s : Scanner) (seen : List Char) (off dangling : Bool) (c : Char) : Option Scanner :=
  match c with
  | ')' =>
    if dangling ∨ seen = [] then none
    else some { s with groups := s.groups.drop 1, operand := false, mode := .outside }
  | ':' => if dangling then none else some s.beginGroup
  | '-' => if off then none else some { s with mode := .flags seen true true }
  | c =>
    if c ∈ flagLetters ∧ c ∉ seen then
      some { s with
        ascii := if c = 'u' then off else s.ascii, mode := .flags (c :: seen) off false }
    else none

def step (s : Scanner) (c : Char) : Option Scanner :=
  match s.mode with
  | .outside => s.outsideStep c
  | .repeated => if c = '?' then some { s with mode := .outside } else s.outsideStep c
  | .groupStart => if c = '?' then some { s with mode := .groupKind } else s.outsideStep c
  | .groupKind =>
    if c = '<' then some { s with mode := .name [] }
    else if c = 'P' then some { s with mode := .namedKind }
    else s.flagStep [] false false c
  | .namedKind => if c = '<' then some { s with mode := .name [] } else none
  | .name done => s.nameStep done c
  | .flags seen off dangling => s.flagStep seen off dangling c
  | .escape => s.escapeStep c
  | .code missing value => (Text.hexValue? c).bind (s.codeStep missing value)
  | .property => if c.toLower ∈ categoryLetters then s.put .set else none
  | .classStart negatable empty => s.classStep negatable empty c
  | .inside => s.insideStep c
  | .after item => if c = '-' then some { s with mode := .dash item } else s.insideStep c
  | .dash item => s.dashStep item c
  | .doubled sign => s.doubledStep sign c

/-- Whether nothing is left open. -/
def isComplete (s : Scanner) : Bool :=
  match s.mode with
  | .outside | .repeated => s.groups.isEmpty
  | _ => false

end Scanner

/-- Whether a text is a pattern. -/
def isValid (cs : List Char) : Bool :=
  (cs.foldlM Scanner.step .start).any Scanner.isComplete

end Criteria.Pattern
