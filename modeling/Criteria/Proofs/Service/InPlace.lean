import Criteria.Proofs.Store.Entries
import Criteria.Service

/-!
The service with a store that is changed in place. A call reads and writes the store step by step,
and what it has written stays written when a later step fails. But no call writes before the last of
its steps that may fail, so a store that is changed in place and a new store for each call that
succeeds come to the same.
-/

set_option autoImplicit false
set_option relaxedAutoImplicit false

namespace Criteria

/-- Steps on a store that is changed in place. A fault ends them and leaves the store as it is
then. -/
abbrev InPlace (α : Type) : Type :=
  ExceptT Fault (StateM Store) α

namespace InPlace

variable {α β : Type}

/-- The outcome of the steps, and the store after them. -/
def runOn (p : InPlace α) (s : Store) : Except Fault α × Store :=
  p.run.run s

/-- A step that does not touch the store. -/
def attempt : Except Fault α → InPlace α
  | .ok a => pure a
  | .error fault => throw fault

/-! ### Calls -/

/-- The formula is found before the rule is numbered. -/
def compile (r : Rule) : InPlace Compiled := do
  let f ← attempt (r.resolve (← get).limits)
  modify fun s ↦ { s with compiler := { s.compiler with version := s.compiler.version + 1 } }
  return ⟨{ r with formula := none }, f, (← get).compiler.version⟩

def load (r : Rule) : InPlace Rule := do
  let c ← compile r
  modify fun s ↦ { s with entries := c :: (s.erase c.id).entries }
  return c.toRule

def find (id : String) : InPlace Compiled := do
  attempt ((← get).find id)

def create (id : String) (now : Instant) (text description : String) : InPlace Rule :=
  load ⟨id, Text.trim text, description, none, now, now⟩

def update (now : Instant) (id text : String) (description : Option String) : InPlace Rule := do
  load (Store.updated (← find id) now text description)

def delete (id : String) : InPlace Rule := do
  let c ← find id
  modify fun s ↦ s.erase id
  return c.toRule

/-- The texts are looked up one after another. -/
def parts (members : List (String × Option Connective)) : InPlace (List Part) :=
  members.mapM fun (id, connective) ↦ do
    return ⟨(← find id).rule.text, connective⟩

def combine (id : String) (now : Instant) (members : List (String × Option Connective)) :
    InPlace Rule := do
  let parts ← parts members
  let text ← attempt (Part.combine (← get).limits parts)
  create id now text ("由 " ++ toString members.length ++ " 条规则组合生成")

def dispatch (tracing : Bool) (fresh : Fresh) : Request → InPlace Response
  | .create text description => do
    return .created (← create fresh.id fresh.now text description)
  | .list => do return .rules (← get).toList
  | .get id => do return .rule (← find id).toRule
  | .update id text description => do return .rule (← update fresh.now id text description)
  | .delete id => do return .rule (← delete id)
  | .validate text => do return .valid (← attempt (Formula.read (← get).limits text))
  | .evaluate id data => do
    return .decided (← attempt (Service.evaluate ⟨← get, tracing⟩ id data))
  | .combine members => do return .created (← combine fresh.id fresh.now members)

/-! ### Steps -/

/-- A result and a new store, or a fault and the old one. -/
def settle (s : Store) : Except Fault (α × Store) → Except Fault α × Store
  | .ok (a, s') => (.ok a, s')
  | .error fault => (.error fault, s)

theorem runOn_pure (a : α) (s : Store) : (pure a : InPlace α).runOn s = (.ok a, s) :=
  rfl

theorem runOn_get (s : Store) : (get : InPlace Store).runOn s = (.ok s, s) :=
  rfl

theorem runOn_modify (change : Store → Store) (s : Store) :
    (modify change : InPlace Unit).runOn s = (.ok (), change s) :=
  rfl

/-- What the first steps have written is there for the next ones, and after a fault it stays. -/
theorem runOn_bind (p : InPlace α) (next : α → InPlace β) (s : Store) :
    (p >>= next).runOn s =
      match p.runOn s with
      | (.ok a, s') => (next a).runOn s'
      | (.error fault, s') => (.error fault, s') := by
  unfold runOn ExceptT.run StateT.run
  simp only [Bind.bind, ExceptT.bind, ExceptT.mk, StateT.bind, ExceptT.bindCont]
  cases p s with
  | mk result s' => cases result <;> rfl

theorem runOn_attempt (e : Except Fault α) (s : Store) : (attempt e).runOn s = (e, s) := by
  cases e <;> rfl

/-! ### The same calls with a new store -/

theorem runOn_load (r : Rule) (s : Store) : (load r).runOn s = settle s (s.load r) := by
  simp only [load, compile, runOn_bind, runOn_get, runOn_attempt, runOn_modify, runOn_pure]
  unfold Store.load Compiler.compile
  rw [show s.compiler.limits = s.limits from rfl]
  cases r.resolve s.limits <;> rfl

theorem runOn_find (id : String) (s : Store) : (find id).runOn s = (s.find id, s) := by
  simp only [find, runOn_bind, runOn_get, runOn_attempt]

theorem runOn_create (id : String) (now : Instant) (text description : String) (s : Store) :
    (create id now text description).runOn s = settle s (s.create id now text description) :=
  runOn_load _ s

theorem runOn_update (now : Instant) (id text : String) (description : Option String)
    (s : Store) :
    (update now id text description).runOn s = settle s (s.update now id text description) := by
  simp only [update, runOn_bind, runOn_find]
  unfold Store.update
  cases s.find id with
  | error fault => rfl
  | ok c => exact runOn_load _ s

theorem runOn_delete (id : String) (s : Store) :
    (delete id).runOn s = settle s (s.delete id) := by
  simp only [delete, runOn_bind, runOn_find, runOn_modify, runOn_pure]
  unfold Store.delete
  cases s.find id <;> rfl

theorem runOn_parts (members : List (String × Option Connective)) (s : Store) :
    (parts members).runOn s = (s.parts members, s) := by
  unfold parts Store.parts
  induction members with
  | nil => rfl
  | cons member members ih =>
    simp only [List.mapM_cons, runOn_bind, runOn_find, runOn_pure]
    cases s.find member.1 with
    | error fault => rfl
    | ok c =>
      simp only [ih]
      cases (members.mapM _ : Except Fault (List Part)) <;> rfl

/-- A combination that fails on a part or on the joined text has written nothing yet. -/
theorem runOn_combine (id : String) (now : Instant)
    (members : List (String × Option Connective)) (s : Store) :
    (combine id now members).runOn s = settle s (s.combine id now members) := by
  simp only [combine, runOn_bind, runOn_parts, runOn_get, runOn_attempt]
  unfold Store.combine
  cases s.parts members with
  | error fault => rfl
  | ok parts =>
    simp only [Bind.bind, Except.bind]
    cases Part.combine s.limits parts with
    | error fault => rfl
    | ok text => exact runOn_create id now text _ s

theorem runOn_dispatch (s : Service) (fresh : Fresh) (request : Request) :
    (dispatch s.tracing fresh request).runOn s.store =
      settle s.store (s.dispatch fresh request) := by
  cases request with
  | create text description =>
    simp only [dispatch, Service.dispatch, runOn_bind, runOn_create, runOn_pure]
    cases s.store.create fresh.id fresh.now text description <;> rfl
  | list => rfl
  | get id =>
    simp only [dispatch, Service.dispatch, runOn_bind, runOn_find, runOn_pure]
    cases s.store.find id <;> rfl
  | update id text description =>
    simp only [dispatch, Service.dispatch, runOn_bind, runOn_update, runOn_pure]
    cases s.store.update fresh.now id text description <;> rfl
  | delete id =>
    simp only [dispatch, Service.dispatch, runOn_bind, runOn_delete, runOn_pure]
    cases s.store.delete id <;> rfl
  | validate text =>
    simp only [dispatch, Service.dispatch, runOn_bind, runOn_get, runOn_attempt, runOn_pure]
    cases Formula.read s.store.limits text <;> rfl
  | evaluate id data =>
    simp only [dispatch, Service.dispatch, runOn_bind, runOn_get, runOn_attempt, runOn_pure]
    cases s.evaluate id data <;> rfl
  | combine members =>
    simp only [dispatch, Service.dispatch, runOn_bind, runOn_combine, runOn_pure]
    cases s.store.combine fresh.id fresh.now members <;> rfl

end InPlace

/-- The answer to a request, with the store as the steps leave it, be it after a fault. -/
def Service.handleInPlace (s : Service) (fresh : Fresh) (request : Request) :
    Response × Service :=
  match (InPlace.dispatch s.tracing fresh request).runOn s.store with
  | (.ok response, store) => (response, { s with store })
  | (.error fault, store) => (.failed fault, { s with store })

/-- A store that is changed in place serves as well as a new one for each call that succeeds. -/
theorem Service.handleInPlace_eq (s : Service) (fresh : Fresh) (request : Request) :
    s.handleInPlace fresh request = s.handle fresh request := by
  unfold handleInPlace handle
  rw [InPlace.runOn_dispatch]
  cases s.dispatch fresh request <;> rfl

end Criteria
