import Criteria.Json.Token

/-!
JSON texts read as far as they go. A text may stop being well-formed inside a value, or hold numbers
and strings that no value can be; a draft keeps what stands before and around them.
-/

set_option autoImplicit false
set_option relaxedAutoImplicit false

namespace Criteria.Json

/-- What a text spells, up to where it stops being well-formed. -/
inductive Draft where
  /-- Nothing well-formed. -/
  | broken
  /-- A value without parts. A number out of range and half a character have none. -/
  | leaf (v : Option Json)
  /-- The items of an array, which is complete if it is closed. -/
  | array (items : List Draft) (closed : Bool)
  /-- The members of an object, which is complete if it is closed. -/
  | object (members : List (Option String × Draft)) (closed : Bool)

namespace Draft

mutual

/-- The value, if the draft is complete and every part of it has one. -/
def whole? : Draft → Option Json
  | .broken => none
  | .leaf v => v
  | .array items closed => if closed then (wholeItems [] items).map .array else none
  | .object members closed => if closed then (wholeMembers [] members).map .object else none

/-- The values of items, after those that `done` holds in reverse. -/
def wholeItems (done : List Json) : List Draft → Option (List Json)
  | [] => some done.reverse
  | d :: items =>
    match whole? d with
    | none => none
    | some v => wholeItems (v :: done) items

/-- The names and values of members, after those that `done` holds in reverse. -/
def wholeMembers (done : List (String × Json)) :
    List (Option String × Draft) → Option (List (String × Json))
  | [] => some done.reverse
  | (name, d) :: members =>
    match name, whole? d with
    | some name, some v => wholeMembers ((name, v) :: done) members
    | _, _ => none

end

/-- Whether the text is well-formed up to the end of the draft. What is closed was complete
inside. -/
def isComplete : Draft → Bool
  | .broken => false
  | .leaf _ => true
  | .array _ closed => closed
  | .object _ closed => closed

end Draft

/-- An array or object that is open, its contents last first. In a `member` the name is read and
the value has to follow. -/
inductive Frame where
  | array (done : List Draft)
  | object (done : List (Option String × Draft))
  | member (done : List (Option String × Draft)) (name : Option String)

/-- What there is of an array or object that is not closed, and of the part that it ends in. -/
def Frame.draft (last : Option Draft) : Frame → Draft
  | .array done => .array (last.toList ++ done).reverse false
  | .object done => .object done.reverse false
  | .member done name => .object ((name, last.getD .broken) :: done).reverse false

/-- What may follow. An array or object that has just been opened may end at once. -/
inductive Focus where
  | value
  | itemOrEnd
  | name
  | nameOrEnd
  | colon
  | complete (d : Draft)

structure Reader where
  frames : List Frame
  focus : Focus

namespace Reader

def start : Reader :=
  ⟨[], .value⟩

/-- Whether one more array or object may be opened. -/
def hasRoom (limit : Option Nat) (r : Reader) : Bool :=
  match limit with
  | none => true
  | some n => r.frames.length < n

/-- The first token of a value. -/
def beginValue (limit : Option Nat) (r : Reader) : Token → Option Reader
  | .text s => some ⟨r.frames, .complete (.leaf (s.map .text))⟩
  | .scalar v => some ⟨r.frames, .complete (.leaf v)⟩
  | .openArray => if r.hasRoom limit then some ⟨.array [] :: r.frames, .itemOrEnd⟩ else none
  | .openObject => if r.hasRoom limit then some ⟨.object [] :: r.frames, .nameOrEnd⟩ else none
  | _ => none

/-- The name of a member. -/
def beginMember (r : Reader) (t : Token) : Option Reader :=
  match r.frames, t with
  | .object done :: frames, .text name => some ⟨.member done name :: frames, .colon⟩
  | _, _ => none

/-- What follows the value `d`: a comma, or the end of the array or object that holds it. -/
def afterValue (frames : List Frame) (d : Draft) (t : Token) : Option Reader :=
  match frames, t with
  | .array done :: frames, .comma => some ⟨.array (d :: done) :: frames, .value⟩
  | .array done :: frames, .closeArray =>
    some ⟨frames, .complete (.array (d :: done).reverse true)⟩
  | .member done name :: frames, .comma => some ⟨.object ((name, d) :: done) :: frames, .name⟩
  | .member done name :: frames, .closeObject =>
    some ⟨frames, .complete (.object ((name, d) :: done).reverse true)⟩
  | _, _ => none

def step (limit : Option Nat) (r : Reader) (t : Token) : Option Reader :=
  match r.focus with
  | .value => r.beginValue limit t
  | .itemOrEnd =>
    match r.frames, t with
    | .array _ :: frames, .closeArray => some ⟨frames, .complete (.array [] true)⟩
    | _, _ => r.beginValue limit t
  | .name => r.beginMember t
  | .nameOrEnd =>
    match r.frames, t with
    | .object _ :: frames, .closeObject => some ⟨frames, .complete (.object [] true)⟩
    | _, _ => r.beginMember t
  | .colon =>
    match t with
    | .colon => some ⟨r.frames, .value⟩
    | _ => none
  | .complete d => afterValue r.frames d t

/-- Reads tokens while they fit, and says whether all of them did. -/
def run (limit : Option Nat) (r : Reader) : List Token → Reader × Bool
  | [] => (r, true)
  | t :: tokens =>
    match r.step limit t with
    | none => (r, false)
    | some r => run limit r tokens

/-- The value that is read last. -/
def last (r : Reader) : Option Draft :=
  match r.focus with
  | .complete d => some d
  | _ => none

/-- All that has been read. -/
def draft (r : Reader) : Draft :=
  match r.frames with
  | [] => r.last.getD .broken
  | frame :: frames => frames.foldl (fun d frame ↦ frame.draft (some d)) (frame.draft r.last)

end Reader

/-- What a text spells, with at most `limit` arrays and objects inside one another, and whether
nothing but layout follows it. -/
def readDraft (limit : Option Nat) (s : String) : Draft × Bool :=
  let (tokens, clean) := tokens s
  let (r, all) := Reader.start.run limit tokens
  (r.draft, all && clean)

/-- The value that a whole text spells. -/
def read? (limit : Option Nat) (s : String) : Option Json :=
  match readDraft limit s with
  | (d, true) => d.whole?
  | _ => none

/-- The deepest nesting of values that arrive from outside. -/
def nestingLimit : Nat :=
  127

end Criteria.Json
