import Criteria.Proofs.Store.Run
import Criteria.Service

/-!
What the calls on a store have done, told as a history of events. The store answers for each
identifier from the last event about it, so a rule that was taken out of force stays out until one
is loaded under its identifier again.
-/

set_option autoImplicit false
set_option relaxedAutoImplicit false

namespace Criteria

/-- What a call that succeeds has done. A rule is told as the call answers it, with the formula by
which it decides. -/
inductive Event where
  | made (rule : Rule)
  | changed (rule : Rule)
  | loaded (rule : Rule)
  | removed (id : String)
  | cleared

namespace Event

/-- The rule that the event put in force, if it put one in. -/
def rule? : Event → Option Rule
  | .made r | .changed r | .loaded r => some r
  | .removed _ | .cleared => none

/-- Whether the event put a rule in force under the identifier, or took it out. -/
def concerns (id : String) : Event → Bool
  | .made r | .changed r | .loaded r => r.id == id
  | .removed j => j == id
  | .cleared => true

/-- Whether the event made a new rule with the identifier. -/
def makes (id : String) : Event → Bool
  | .made r => r.id == id
  | _ => false

/-- Whether the event loaded a rule with the identifier. -/
def loads (id : String) : Event → Bool
  | .loaded r => r.id == id
  | _ => false

theorem id_of_concerns {e : Event} {id : String} {r : Rule} (h : e.concerns id = true)
    (hr : e.rule? = some r) : r.id = id := by
  cases e <;> simp_all [concerns, rule?]

/-- The last event of a history about an identifier. -/
def lastAbout (id : String) (h : List Event) : Option Event :=
  h.reverse.find? (concerns id)

/-- The rule that a history leaves in force under an identifier: the one that the last event about
the identifier put there. -/
def standing (h : List Event) (id : String) : Option Rule :=
  (lastAbout id h).bind rule?

variable {id : String} {h k : List Event} {e : Event}

theorem lastAbout_append (id : String) (h k : List Event) :
    lastAbout id (h ++ k) = (lastAbout id k).or (lastAbout id h) := by
  rw [lastAbout, List.reverse_append, List.find?_append]
  rfl

theorem lastAbout_eq_none_iff : lastAbout id h = none ↔ ∀ e ∈ h, e.concerns id = false := by
  simp [lastAbout]

theorem mem_of_lastAbout (h : lastAbout id k = some e) : e ∈ k ∧ e.concerns id = true :=
  ⟨List.mem_reverse.mp (List.mem_of_find?_eq_some h), List.find?_some h⟩

/-- A rule stands because some event put it in force. -/
theorem exists_of_standing {r : Rule} (hr : standing h id = some r) :
    ∃ e ∈ h, e.rule? = some r ∧ r.id = id := by
  obtain ⟨e, he, hrule⟩ := Option.bind_eq_some_iff.mp hr
  obtain ⟨hmem, hconcerns⟩ := mem_of_lastAbout he
  exact ⟨e, hmem, hrule, id_of_concerns hconcerns hrule⟩

/-- Rules are made with new identifiers: no rule was put in force under the same one before. -/
def MadeAnew (h : List Event) : Prop :=
  h.Pairwise fun e e' ↦ ∀ r ∈ e.rule?, e'.makes r.id = false

instance (h : List Event) : Decidable (MadeAnew h) :=
  inferInstanceAs (Decidable (h.Pairwise _))

end Event

namespace Store

open Event

variable {limits : Limits} {s t u : Store} {call : Call} {id : String}

/-! ### The events of calls -/

/-- The event of a call that answers a rule, if it does. -/
def told (event : Rule → Event) : Except Fault (Rule × Store) → List Event
  | .ok (r, _) => [event r]
  | .error _ => []

/-- A rule that is accepted is loaded as it was given, with the formula by which it decides. -/
def loading (limits : Limits) (r : Rule) : List Event :=
  match r.resolve limits with
  | .ok f => [.loaded { r with formula := some f }]
  | .error _ => []

/-- What a call on the store does. A call that fails does nothing. -/
def events (s : Store) : Call → List Event
  | .create id now text description => told .made (s.create id now text description)
  | .update now id text description => told .changed (s.update now id text description)
  | .combine id now members => told .made (s.combine id now members)
  | .delete id => told (fun _ ↦ .removed id) (s.delete id)
  | .clear => [.cleared]
  | .load r => loading s.limits r
  | .loadText now text =>
    match Rule.ofText now text with
    | .ok r => loading s.limits r
    | .error _ => []
  | .loadAll rules => rules.flatMap (loading s.limits)

/-- What calls after one another do. -/
def history (s : Store) : List Call → List Event
  | [] => []
  | call :: calls => s.events call ++ (s.after call).history calls

theorem history_append (s : Store) (calls more : List Call) :
    s.history (calls ++ more) = s.history calls ++ (calls.foldl Store.after s).history more := by
  induction calls generalizing s with
  | nil => rfl
  | cons call calls ih => simp [history, ih]

/-! ### The rules in force -/

/-- The rule in force under an identifier, with its formula as the cache. -/
def rule? (s : Store) (id : String) : Option Rule :=
  (s.get? id).map Compiled.toRule

theorem rule?_eq_none_iff : s.rule? id = none ↔ s.get? id = none := by
  simp [rule?]

/-- The rules in force are those that the events put there, and apart from these the ones that were
in force before. -/
def Tells (s : Store) (h : List Event) (t : Store) : Prop :=
  ∀ id, t.rule? id = (lastAbout id h).elim (s.rule? id) Event.rule?

namespace Tells

theorem nil (s : Store) : s.Tells [] s :=
  fun _ ↦ rfl

theorem append {h k : List Event} (hs : s.Tells h t) (ht : t.Tells k u) :
    s.Tells (h ++ k) u := by
  intro id
  rw [ht id, hs id, lastAbout_append]
  cases lastAbout id k <;> rfl

theorem of_event {e : Event}
    (h : ∀ id, t.rule? id = if e.concerns id then e.rule? else s.rule? id) : s.Tells [e] t := by
  intro id
  rw [h id, lastAbout, List.reverse_singleton, List.find?_singleton]
  by_cases he : e.concerns id = true <;> simp [he]

/-- What a call tells that succeeds in putting a rule in force. -/
theorem put {event : Rule → Event} (hrule : ∀ r, (event r).rule? = some r)
    (hconcerns : ∀ r id, (event r).concerns id = (r.id == id)) (s : Store) (r : Rule)
    (f : Formula) : s.Tells [event { r with formula := some f }] (s.put r f) := by
  refine of_event fun id ↦ ?_
  rw [hrule, hconcerns, rule?, get?_put]
  by_cases hid : r.id = id <;> simp [hid, rule?, Compiled.toRule]

theorem put_made (s : Store) (r : Rule) (f : Formula) :
    s.Tells [.made { r with formula := some f }] (s.put r f) :=
  put (fun _ ↦ rfl) (fun _ _ ↦ rfl) s r f

theorem put_changed (s : Store) (r : Rule) (f : Formula) :
    s.Tells [.changed { r with formula := some f }] (s.put r f) :=
  put (fun _ ↦ rfl) (fun _ _ ↦ rfl) s r f

theorem put_loaded (s : Store) (r : Rule) (f : Formula) :
    s.Tells [.loaded { r with formula := some f }] (s.put r f) :=
  put (fun _ ↦ rfl) (fun _ _ ↦ rfl) s r f

theorem erase (s : Store) (id : String) : s.Tells [.removed id] (s.erase id) := by
  refine of_event fun j ↦ ?_
  rw [rule?, get?_erase]
  by_cases hid : j = id
  · simp [hid, concerns, Event.rule?]
  · simp [Ne.symm hid, concerns, rule?]

theorem clear (s : Store) : s.Tells [.cleared] s.clear :=
  of_event fun _ ↦ rfl

/-- A call that fails tells nothing and leaves the store as it was. -/
theorem of_told {event : Rule → Event} {e : Except Fault (Rule × Store)}
    (h : ∀ r t, e = .ok (r, t) → s.Tells [event r] t) : s.Tells (told event e) (s.kept e) := by
  cases e with
  | error fault => exact nil s
  | ok result => exact h result.1 result.2 rfl

theorem loading (s : Store) (r : Rule) : s.Tells (loading s.limits r) (s.kept (s.load r)) := by
  unfold Store.loading
  cases hresolve : r.resolve s.limits with
  | error fault =>
    rw [load_of_resolve_error hresolve]
    exact nil s
  | ok f =>
    rw [load_eq_ok_iff.mpr ⟨f, hresolve, rfl, rfl⟩]
    exact put_loaded s r f

theorem loadAll (s : Store) (rules : List Rule) :
    s.Tells (rules.flatMap (Store.loading s.limits)) (s.loadAll rules).2 := by
  refine loadAll_induction (motive := fun s rules result ↦
    s.Tells (rules.flatMap (Store.loading s.limits)) result.2) nil ?_ ?_ s rules
  · intro s r fault rules hresolve ih
    simpa [Store.loading, hresolve] using ih
  · intro s r f rules hresolve ih
    have hloading : Store.loading s.limits r = [.loaded { r with formula := some f }] := by
      rw [Store.loading, hresolve]
    rw [List.flatMap_cons, hloading]
    exact (put_loaded s r f).append ih

/-- The events of a call tell how the rules in force change. -/
theorem after (s : Store) (call : Call) : s.Tells (s.events call) (s.after call) := by
  cases call with
  | create id now text description =>
    refine of_told fun r t hok ↦ ?_
    obtain ⟨f, -, rfl, rfl⟩ := create_eq_ok_iff.mp hok
    exact put_made s ⟨id, Text.trim text, description, none, now, now⟩ f
  | update now id text description =>
    refine of_told fun r t hok ↦ ?_
    obtain ⟨c, -, f, -, rfl, rfl⟩ := update_eq_ok_iff.mp hok
    exact put_changed s (updated c now text description) f
  | combine id now members =>
    refine of_told fun r t hok ↦ ?_
    obtain ⟨_, text, description, _, _, hcreate⟩ := exists_create_of_combine hok
    obtain ⟨f, -, rfl, rfl⟩ := create_eq_ok_iff.mp hcreate
    exact put_made s ⟨id, Text.trim text, description, none, now, now⟩ f
  | delete id =>
    refine of_told fun r t hok ↦ ?_
    obtain ⟨_, _, _, rfl⟩ := delete_eq_ok_iff.mp hok
    exact erase s id
  | clear => exact clear s
  | load r => exact loading s r
  | loadText now text =>
    simp only [events, Store.after, Store.loadText]
    cases Rule.ofText now text with
    | error mismatch => exact nil s
    | ok r => exact loading s r
  | loadAll rules => exact loadAll s rules

theorem run (s : Store) (calls : List Call) :
    s.Tells (s.history calls) (calls.foldl Store.after s) := by
  induction calls generalizing s with
  | nil => exact nil s
  | cons call calls ih => exact (after s call).append (ih (s.after call))

end Tells

/-- After calls on an empty store the rules in force are those that the history leaves. -/
theorem rule?_run (limits : Limits) (calls : List Call) (id : String) :
    (run limits calls).rule? id = standing ((ofLimits limits).history calls) id := by
  have htells := Tells.run (ofLimits limits) calls id
  rw [standing, run, htells]
  cases lastAbout id ((ofLimits limits).history calls) <;> rfl

end Store

end Criteria
