import Criteria.Rule
import Criteria.Service
import Criteria.Settings

/-!
The service as a program: it finds its settings, fills the store from a seed file, and answers each
line of input by one line. Whatever cannot be read on the way is passed over.
-/

set_option autoImplicit false
set_option relaxedAutoImplicit false

namespace Criteria.Program

def serviceName : String :=
  "rule-engine"

/-- The directory of the configuration files. -/
def directory (vars : List (String × String)) : String :=
  (vars.lookup "CONFIG_DIR").getD "config"

/-- The path of a file of a directory. A name that is a whole path stays as it is. -/
def pathIn (directory name : String) : String :=
  if name.startsWith "/" then name else directory ++ "/" ++ name

def environment (vars : List (String × String)) : String :=
  (vars.lookup "ELIGIBILITY_ENV").getD "development"

/-- The settings of a service in the environment that the variables name. `contents` gives the text
of a file of the configuration directory. -/
def settings? (contents : String → Option String) (vars : List (String × String))
    (service : String) : Option Settings :=
  Settings.load? contents vars (environment vars) service

/-- The service with the rules of the seed file in force, as far as they are accepted. -/
def start (settings : Settings) (now : Instant) (seed : Option String) : Service :=
  let store := Store.ofLimits settings.limits
  let rules := (seed.map (Rule.listOfText now)).getD (.ok [])
  match rules with
  | .error _ => ⟨store, settings.tracing⟩
  | .ok rules => ⟨(store.loadAll rules).2, settings.tracing⟩

/-- The lines of an input, each with the byte that ends it. What follows the last such byte is a
line too, unless it is empty; `done` holds the beginning of the first line in reverse. -/
def linesFrom (done : List UInt8) : List UInt8 → List (List UInt8)
  | [] => if done = [] then [] else [done.reverse]
  | b :: rest =>
    if b = 0x0A then (b :: done).reverse :: linesFrom [] rest else linesFrom (b :: done) rest

def lines (input : List UInt8) : List (List UInt8) :=
  linesFrom [] input

/-- The first line with the byte that ends it, and what follows. -/
def takeLine : List UInt8 → List UInt8 × List UInt8
  | [] => ([], [])
  | b :: rest => if b = 0x0A then ([b], rest) else ((takeLine rest).map (b :: ·) id)

theorem length_takeLine_lt {input : List UInt8} (h : input ≠ []) :
    (takeLine input).2.length < input.length := by
  induction input with
  | nil => exact absurd rfl h
  | cons b rest ih =>
    rw [takeLine]
    split
    · exact Nat.lt_succ_self _
    · by_cases hrest : rest = []
      · subst hrest
        exact Nat.one_pos
      · exact Nat.lt_succ_of_lt (ih hrest)

/-- A line with the byte that ends it. -/
def ended (body : List UInt8) : List UInt8 :=
  body ++ [0x0A]

/-- The answers to lines, where the `n`th call takes `fresh n` from outside. -/
def answers (fresh : Nat → Fresh) (s : Service) (n : Nat) : List (List UInt8) → List Response
  | [] => []
  | line :: rest =>
    let (response, s) := s.handleLine (fresh n) line
    response.toList ++ answers fresh s (n + 1) rest

/-- The line that answers a request, for a decision that took so many microseconds. -/
def answerLine (micros : Nat) (response : Response) : String :=
  (response.toJson micros).write

/-- The bytes that answer a request. -/
def written (micros : Nat) (response : Response) : List UInt8 :=
  ended (answerLine micros response).toUTF8.data.toList

/-- What the program writes. As long as there is input it takes a line, and writes the answer to it,
if it has one, before it takes the next. -/
def transcript (fresh : Nat → Fresh) (micros : Nat → Nat) (s : Service) (turn : Nat)
    (input : List UInt8) : List UInt8 :=
  if input = [] then []
  else
    match s.handleLine (fresh turn) (takeLine input).1 with
    | (none, s) => transcript fresh micros s (turn + 1) (takeLine input).2
    | (some response, s) =>
      written (micros turn) response ++ transcript fresh micros s (turn + 1) (takeLine input).2
termination_by input.length
decreasing_by all_goals exact length_takeLine_lt ‹_›

end Criteria.Program
