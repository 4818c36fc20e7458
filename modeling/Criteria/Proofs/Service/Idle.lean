import Criteria.Proofs.Service.InPlace
import Criteria.Proofs.Store.Entries

/-!
Requests that leave no trace. A request that fails leaves the whole store and its compiler as they
were, and so does one that only looks or decides. Lines with such requests can be left out of any
run: the answers to the others and the service at the end stay the same.
-/

set_option autoImplicit false
set_option relaxedAutoImplicit false

namespace Criteria

/-- Whether the action only looks or decides. -/
def Action.readsOnly : Action → Bool
  | .list | .get | .validate | .evaluate => true
  | .create | .update | .delete | .combine => false

namespace Service

variable {s : Service} {fresh : Fresh} {request : Request} {line : List UInt8}

/-! ### One request -/

/-- A request that is carried out succeeds, and one that only looks or decides gives the store
back. -/
theorem succeeds_of_dispatch {response : Response} {store : Store}
    (h : s.dispatch fresh request = .ok (response, store)) :
    response.succeeds = true ∧ (request.action.readsOnly = true → store = s.store) := by
  cases request with
  | create | update | delete | combine =>
    obtain ⟨result, -, h⟩ := bind_eq_ok_iff.mp h
    cases h
    exact ⟨rfl, fun hreads ↦ absurd hreads Bool.false_ne_true⟩
  | get | validate | evaluate =>
    obtain ⟨result, -, h⟩ := bind_eq_ok_iff.mp h
    cases h
    exact ⟨rfl, fun _ ↦ rfl⟩
  | list =>
    cases h
    exact ⟨rfl, fun _ ↦ rfl⟩

/-- A request without success, or one that only looks or decides, leaves the service as it was. -/
theorem handle_eq_self (h : (s.handle fresh request).1.succeeds = false ∨
    request.action.readsOnly = true) : (s.handle fresh request).2 = s := by
  unfold handle at h ⊢
  cases hdispatch : s.dispatch fresh request with
  | error fault => rfl
  | ok result =>
    obtain ⟨response, store⟩ := result
    obtain ⟨hsucceeds, hstore⟩ := succeeds_of_dispatch hdispatch
    rw [hdispatch] at h
    have hreads : request.action.readsOnly = true := by
      refine h.resolve_left ?_
      change ¬response.succeeds = false
      simp [hsucceeds]
    rw [hstore hreads]

/-! ### One line -/

/-- The request that a line holds. A line that is blank or cannot be read holds none. -/
def request? (line : List UInt8) : Option Request :=
  match Text.decodeUtf8 line with
  | .error _ => none
  | .ok cs =>
    match Text.trimChars cs with
    | [] => none
    | cs => (Request.ofText (String.ofList cs)).toOption

/-- A line is handled as the request that it holds; one that holds none is refused or, if it is
blank, not answered, and changes nothing. -/
theorem handleLine_cases (s : Service) (fresh : Fresh) (line : List UInt8) :
    (request? line = none ∧ ∃ refusal : Option Refusal,
      s.handleLine fresh line = (refusal.map .refused, s)) ∨
      ∃ request, request? line = some request ∧ s.handleLine fresh line =
        (some (s.handle fresh request).1, (s.handle fresh request).2) := by
  unfold request? handleLine
  cases Text.decodeUtf8 line with
  | error fault => exact Or.inl ⟨rfl, some (.notUtf8 fault), rfl⟩
  | ok cs =>
    cases hchars : Text.trimChars cs with
    | nil =>
      left
      simp only [hchars, true_and]
      exact ⟨none, rfl⟩
    | cons c rest =>
      simp only [hchars]
      cases Request.ofText (String.ofList (c :: rest)) with
      | error mismatch => exact Or.inl ⟨rfl, some (.unreadable mismatch), rfl⟩
      | ok request => exact Or.inr ⟨request, rfl, rfl⟩

/-! ### Lines after one another -/

/-- A line that was given to the service, with what its call took from outside, and the answer. -/
structure Exchange where
  fresh : Fresh
  line : List UInt8
  response : Option Response

namespace Exchange

/-- The call again, without its answer. -/
def call (e : Exchange) : Fresh × List UInt8 :=
  (e.fresh, e.line)

/-- Whether the line was answered without success, or asked only to look or to decide. -/
def isIdle (e : Exchange) : Bool :=
  e.response.any (fun response ↦ !response.succeeds) ||
    (request? e.line).any fun request ↦ request.action.readsOnly

end Exchange

/-- A line that is idle leaves the service as it was. -/
theorem Exchange.handleLine_eq_self (h : isIdle ⟨fresh, line, (s.handleLine fresh line).1⟩ = true) :
    (s.handleLine fresh line).2 = s := by
  rcases handleLine_cases s fresh line with ⟨-, refusal, hself⟩ | ⟨request, hrequest, hhandle⟩
  · rw [hself]
  · rw [hhandle] at h ⊢
    simp only [isIdle, hrequest, Option.any_some, Bool.or_eq_true, Bool.not_eq_true'] at h
    exact handle_eq_self h

/-- The exchanges of a run, and the service after it. -/
def serve (s : Service) : List (Fresh × List UInt8) → List Exchange × Service
  | [] => ([], s)
  | (fresh, line) :: calls =>
    let rest := (s.handleLine fresh line).2.serve calls
    (⟨fresh, line, (s.handleLine fresh line).1⟩ :: rest.1, rest.2)

/-- Idle lines, or some of them, may be left out of a run. -/
theorem serve_filter {keep : Exchange → Bool} (hkeep : ∀ e, keep e = false → e.isIdle = true)
    (s : Service) (calls : List (Fresh × List UInt8)) :
    s.serve (((s.serve calls).1.filter keep).map Exchange.call) =
      ((s.serve calls).1.filter keep, (s.serve calls).2) := by
  induction calls generalizing s with
  | nil => rfl
  | cons call calls ih =>
    obtain ⟨fresh, line⟩ := call
    simp only [serve]
    by_cases hkept : keep ⟨fresh, line, (s.handleLine fresh line).1⟩ = true
    · rw [List.filter_cons_of_pos hkept, List.map_cons]
      simp only [Exchange.call, serve]
      rw [ih]
    · -- The line that is left out has left the service as it was.
      have hself := Exchange.handleLine_eq_self (hkeep _ (Bool.eq_false_iff.mpr hkept))
      rw [List.filter_cons_of_neg hkept, hself]
      exact ih s

/-- A request without success leaves the service as it was, and so does one that only looks or
decides, be it given as a request or as a line. So any such lines may be left out of a run: the
other lines are answered as before, and the service at the end is the same. A store that is changed
in place, where what was written before a fault would stay, makes no difference to this. -/
theorem idle_lines_leave_no_trace :
    (∀ (s : Service) (fresh : Fresh) (request : Request),
      (s.handle fresh request).1.succeeds = false ∨ request.action.readsOnly = true →
        (s.handle fresh request).2 = s) ∧
    (∀ (s : Service) (fresh : Fresh) (line : List UInt8),
      (∃ response, (s.handleLine fresh line).1 = some response ∧ response.succeeds = false) ∨
        (∃ request, request? line = some request ∧ request.action.readsOnly = true) →
          (s.handleLine fresh line).2 = s) ∧
    (∀ (keep : Exchange → Bool), (∀ e, keep e = false → e.isIdle = true) →
      ∀ (s : Service) (calls : List (Fresh × List UInt8)),
        s.serve (((s.serve calls).1.filter keep).map Exchange.call) =
          ((s.serve calls).1.filter keep, (s.serve calls).2)) ∧
    ∀ (s : Service) (fresh : Fresh) (request : Request),
      s.handleInPlace fresh request = s.handle fresh request := by
  refine ⟨fun _ _ _ ↦ handle_eq_self, fun s fresh line h ↦ ?_, fun _ ↦ serve_filter,
    handleInPlace_eq⟩
  apply Exchange.handleLine_eq_self
  rw [Exchange.isIdle, Bool.or_eq_true]
  rcases h with ⟨response, hresponse, hfails⟩ | ⟨request, hrequest, hreads⟩
  · left
    simp [hresponse, hfails]
  · right
    simp [hrequest, hreads]

/-- A rule is made, given a text that is none, listed, combined with a rule that there is not, asked
for by half a line, and deleted. -/
def sixCalls : List (Fresh × List UInt8) :=
  ["[\"create\",\"a = 1\"]", "[\"update\",\"0\",\"a =\"]", "[\"list\"]",
    "[\"combine\",[[\"0\",\"AND\"],[\"none\"]]]", "[\"get\",", "[\"delete\",\"0\"]"].zipIdx.map
      fun (text, i) ↦ (⟨toString i, ⟨i, 0⟩⟩, text.toUTF8.toList)

/-- Only the first and the last of the six lines count. -/
theorem idle_lines_leave_no_trace_of_six :
    ∃ kept last, ((⟨.ofLimits .standard, true⟩ : Service).serve sixCalls).2 = last ∧
      kept.map (fun e ↦ (e.fresh.id, e.response.map Response.status)) =
        [("0", some 201), ("5", some 200)] ∧
      (⟨.ofLimits .standard, true⟩ : Service).serve (kept.map Exchange.call) = (kept, last) := by
  refine ⟨_, _, rfl, ?_, idle_lines_leave_no_trace.2.2.1 (fun e ↦ !e.isIdle) ?_ _ _⟩
  · decide +kernel
  · intro e he
    simpa using he

end Service

end Criteria
