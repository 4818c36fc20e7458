import Criteria.LogFilter.SpanField

/-!
Directives: each gives a level to the messages of a target, of a span, of a span's field, or to all
messages. The parts are told apart in the text without the blanks around it, but they are cut out of
the whole text at the same bytes, so that blanks in front move every part.
-/

set_option autoImplicit false
set_option relaxedAutoImplicit false

namespace Criteria

/-- Which messages are kept: none, or those of a kind and of the kinds before it. -/
inductive LogLevel where
  | off
  | error
  | warn
  | info
  | debug
  | trace
  deriving DecidableEq, Repr

namespace LogLevel

def name : LogLevel → String
  | .off => "off"
  | .error => "error"
  | .warn => "warn"
  | .info => "info"
  | .debug => "debug"
  | .trace => "trace"

/-- The levels from the most silent one on; a level's place is another name of it. -/
def all : List LogLevel :=
  [.off, .error, .warn, .info, .debug, .trace]

/-- The level that a name in letters of any size or a number spells. -/
def read? (cs : List Char) : Option LogLevel :=
  match natural? cs with
  | some n => all[n]?
  | none => all.find? (·.name.toList = cs.map Char.toLower)

end LogLevel

structure Directive where
  target : Option String
  span : Option String
  field : Option SpanField
  level : LogLevel
  deriving BEq

namespace Directive

/-- The directive that keeps all messages. -/
def keepAll : Directive :=
  ⟨none, none, none, .trace⟩

/-- The characters from a byte on, if a character begins or the text ends there. -/
def dropBytes? : Nat → List Char → Option (List Char)
  | 0, cs => some cs
  | _ + 1, [] => none
  | n + 1, c :: cs => if c.utf8Size ≤ n + 1 then dropBytes? (n + 1 - c.utf8Size) cs else none

/-- The characters before a byte, if a character begins or the text ends there. -/
def takeBytes? : Nat → List Char → Option (List Char)
  | 0, _ => some []
  | _ + 1, [] => none
  | n + 1, c :: cs =>
    if c.utf8Size ≤ n + 1 then (takeBytes? (n + 1 - c.utf8Size) cs).map (c :: ·) else none

/-- The characters from one byte to another. -/
def slice? (cs : List Char) (first last : Nat) : Option (List Char) := do
  takeBytes? (last - first) (← dropBytes? first cs)

/-- The part that is being read, with the byte at which it begins. -/
inductive Part where
  | outset
  | head (first : Nat)
  | span (first : Nat)
  | field (first : Nat)
  | fieldEnd
  | spanEnd
  | level (first : Nat)
  deriving DecidableEq, Repr

/-- The parts that are complete, and the one that is being read. -/
structure Reader where
  done : Directive
  part : Part

/-- How a level or a target begins. It goes on with any characters. -/
def beginsHead (c : Char) : Bool :=
  Text.isAlphanumeric c || c = '-' || c = ':' || c = '_'

/-- A character of the span's name, or the sign that ends it. -/
def spanStep (whole : List Char) (r : Reader) (first place : Nat) (c : Char) : Option Reader :=
  match c with
  | ']' => do
    let name ← slice? whole first place
    return ⟨{ r.done with span := some (String.ofList name) }, .spanEnd⟩
  | '\x7b' => do
    let name ← slice? whole first place
    let span := if name = [] then none else some (String.ofList name)
    return ⟨{ r.done with span }, .field (place + 1)⟩
  | _ => some r

/-- The character at a place of the text, the whole of which is given. -/
def step (whole : List Char) (r : Reader) (place : Nat) (c : Char) : Option Reader :=
  match r.part with
  | .outset =>
    if c = '[' then some ⟨r.done, .span (place + 1)⟩
    else if beginsHead c then some ⟨r.done, .head place⟩
    else none
  | .head first =>
    if c = '=' ∨ c = '[' then do
      let target := some (String.ofList (← slice? whole first place))
      return ⟨{ r.done with target },
        if c = '=' then .level (place + 1) else .span (place + 1)⟩
    else some r
  | .span first => spanStep whole r first place c
  | .field first =>
    if c = '\x7d' then do
      let text ← slice? whole first place
      if text = [] then none
      return ⟨{ r.done with field := some (← SpanField.read? text) }, .fieldEnd⟩
    else some r
  | .fieldEnd => if c = ']' then some ⟨r.done, .spanEnd⟩ else none
  | .spanEnd => if c = '=' then some ⟨r.done, .level (place + 1)⟩ else none
  | .level _ => some r

/-- Reads on at a byte. -/
def readFrom? (whole : List Char) (r : Reader) (place : Nat) : List Char → Option Reader
  | [] => some r
  | c :: rest => do readFrom? whole (← step whole r place c) (place + c.utf8Size) rest

/-- The directive at the end of the text. A text that is no level is a target. -/
def finish? (whole : List Char) (r : Reader) : Option Directive :=
  match r.part with
  | .head first => do
    let text ← dropBytes? first whole
    match LogLevel.read? text with
    | some level => return { r.done with level }
    | none => return { r.done with target := some (String.ofList text) }
  | .level first => do
    let text ← dropBytes? first whole
    if text = [] then return r.done
    return { r.done with level := ← LogLevel.read? text }
  | .spanEnd => some r.done
  | _ => none

def read? (cs : List Char) : Option Directive := do
  finish? cs (← readFrom? cs ⟨keepAll, .outset⟩ 0 (Text.trimChars cs))

/-- Whether which messages are meant hangs on the span that they are in. -/
def isDynamic (d : Directive) : Bool :=
  d.span.isSome || d.field.isSome

/-- Whether the directive says something of the messages that are in no span. -/
def isStatic (d : Directive) : Bool :=
  d.span.isNone && d.field.all (·.value.isNone)

def write (d : Directive) : String :=
  let field := d.field.elim "" fun field ↦ "\x7b" ++ field.write ++ "\x7d"
  let place := if d.isDynamic then "[" ++ d.span.getD "" ++ field ++ "]" else ""
  if d.target = none ∧ ¬d.isDynamic then d.level.name
  else d.target.getD "" ++ place ++ "=" ++ d.level.name

/-- The order of the messages that directives are for, from the widest to the most particular. -/
def order (a b : Directive) : Ordering :=
  let size (d : Directive) : Nat := d.target.elim 0 (·.utf8ByteSize + 1)
  (compare (size a) (size b)).then <|
    (compare a.span.isSome b.span.isSome).then <|
      (compare a.field.isSome b.field.isSome).then <|
        (compare (a.target.getD "") (b.target.getD "")).then <|
          (compare (a.span.getD "") (b.span.getD "")).then <|
            match a.field, b.field with
            | some f, some g => f.order g
            | _, _ => .eq

/-- Puts a directive among others, of which the more particular come first, in place of one for the
same messages. -/
def insert (d : Directive) : List Directive → List Directive
  | [] => [d]
  | other :: rest =>
    match d.order other with
    | .gt => d :: other :: rest
    | .eq => d :: rest
    | .lt => other :: insert d rest

end Directive

end Criteria
