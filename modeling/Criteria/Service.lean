import Criteria.Identifier
import Criteria.Request.Read
import Criteria.Response
import Criteria.Store.View

/-!
Requests answered from a store. An answer that is no success leaves the store as it was, and so does
one to a request that only looks or decides.
-/

set_option autoImplicit false
set_option relaxedAutoImplicit false

namespace Criteria

structure Service where
  store : Store
  tracing : Bool

namespace Service

/-- What a rule in force says of the record that `data` is. -/
def evaluate (s : Service) (id : String) (data : Json) : Except Fault Decision := do
  let c ← s.store.find id
  match Record.ofJson data with
  | .error fault => .error (.record fault)
  | .ok r => return ⟨id, c.explain s.tracing r⟩

/-- The answer to a request that does not fail, and the store after it. -/
def dispatch (s : Service) (fresh : Fresh) : Request → Except Fault (Response × Store)
  | .create text description => do
    let (r, store) ← s.store.create fresh.id fresh.now text description
    return (.created r, store)
  | .list => .ok (.rules s.store.toList, s.store)
  | .get id => do return (.rule (← s.store.find id).toRule, s.store)
  | .update id text description => do
    let (r, store) ← s.store.update fresh.now id text description
    return (.rule r, store)
  | .delete id => do
    let (r, store) ← s.store.delete id
    return (.rule r, store)
  | .validate text => do return (.valid (← Formula.read s.store.limits text), s.store)
  | .evaluate id data => do return (.decided (← s.evaluate id data), s.store)
  | .combine members => do
    let (r, store) ← s.store.combine fresh.id fresh.now members
    return (.created r, store)

def handle (s : Service) (fresh : Fresh) (request : Request) : Response × Service :=
  match s.dispatch fresh request with
  | .error fault => (.failed fault, s)
  | .ok (response, store) => (response, { s with store })

/-- The answer to a line of input; a blank one has none. -/
def handleLine (s : Service) (fresh : Fresh) (line : List UInt8) : Option Response × Service :=
  match Text.decodeUtf8 line with
  | .error fault => (some (.refused (.notUtf8 fault)), s)
  | .ok cs =>
    match Text.trimChars cs with
    | [] => (none, s)
    | cs =>
      match Request.ofText (String.ofList cs) with
      | .error mismatch => (some (.refused (.unreadable mismatch)), s)
      | .ok request =>
        let (response, s) := s.handle fresh request
        (some response, s)

end Service

end Criteria
