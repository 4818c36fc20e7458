import Criteria.Proofs.Store.History

/-!
The store answers from the last write. Whatever it is asked about an identifier, it answers from the
rule that the history leaves in force, and it has no answer where the history leaves none. Calls for
other identifiers make no difference, a rule that is updated stays the same rule, and a rule that
was deleted does not come back by itself.
-/

set_option autoImplicit false
set_option relaxedAutoImplicit false

namespace Criteria

namespace Store

open Event

variable {limits : Limits} {s t : Store} {call : Call} {id : String}

/-! ### The events of one call -/

theorem mem_told {event : Rule → Event} {result : Except Fault (Rule × Store)} {e : Event} :
    e ∈ told event result ↔ ∃ r t, result = .ok (r, t) ∧ e = event r := by
  cases result with
  | error fault => simp [told]
  | ok result => simp [told, Prod.ext_iff]

theorem mem_loading {r : Rule} {e : Event} :
    e ∈ loading limits r ↔
      ∃ f, r.resolve limits = .ok f ∧ e = .loaded { r with formula := some f } := by
  unfold loading
  cases r.resolve limits <;> simp

/-- Whether the call may put a rule in force under the identifier, or take it out. -/
def Call.Concerns (id : String) : Call → Prop
  | .create j _ _ _ | .update _ j _ _ | .combine j _ _ | .delete j => j = id
  | .clear => True
  | .load r => r.id = id
  | .loadText now text => ∃ r, Rule.ofText now text = .ok r ∧ r.id = id
  | .loadAll rules => ∃ r ∈ rules, r.id = id

theorem concerns_of_loading {r : Rule} {e : Event} (he : e ∈ loading limits r)
    (hid : e.concerns id = true) : r.id = id := by
  obtain ⟨f, -, rfl⟩ := mem_loading.mp he
  simpa [Event.concerns] using hid

theorem Call.concerns_of_mem_events {e : Event} (he : e ∈ s.events call)
    (hid : e.concerns id = true) : call.Concerns id := by
  cases call with
  | create j now text description =>
    obtain ⟨r, t, hok, rfl⟩ := mem_told.mp he
    obtain ⟨f, -, rfl, -⟩ := create_eq_ok_iff.mp hok
    exact id_of_concerns hid rfl
  | update now j text description =>
    obtain ⟨r, t, hok, rfl⟩ := mem_told.mp he
    obtain ⟨c, hc, f, -, rfl, -⟩ := update_eq_ok_iff.mp hok
    obtain rfl : c.rule.id = j := (mem_of_get? hc).2
    have hrule := id_of_concerns hid rfl
    exact hrule
  | combine j now members =>
    obtain ⟨r, t, hok, rfl⟩ := mem_told.mp he
    obtain ⟨_, text, description, _, _, hcreate⟩ := exists_create_of_combine hok
    obtain ⟨f, -, rfl, -⟩ := create_eq_ok_iff.mp hcreate
    exact id_of_concerns hid rfl
  | delete j =>
    obtain ⟨r, t, -, rfl⟩ := mem_told.mp he
    simpa [Event.concerns, Call.Concerns] using hid
  | clear => trivial
  | load r => exact concerns_of_loading he hid
  | loadText now text =>
    simp only [events] at he
    cases hread : Rule.ofText now text with
    | error mismatch => simp [hread] at he
    | ok r =>
      rw [hread] at he
      exact ⟨r, hread, concerns_of_loading he hid⟩
  | loadAll rules =>
    obtain ⟨r, hr, he⟩ := List.mem_flatMap.mp he
    exact ⟨r, hr, concerns_of_loading he hid⟩

/-- A call for other identifiers leaves the rule as it was. -/
theorem rule?_after_of_not_concerns (h : ¬call.Concerns id) :
    (s.after call).rule? id = s.rule? id := by
  have hnone : lastAbout id (s.events call) = none := by
    rw [lastAbout_eq_none_iff]
    intro e he
    rw [Bool.eq_false_iff]
    exact fun hid ↦ h (Call.concerns_of_mem_events he hid)
  rw [Tells.after s call id, hnone]
  rfl

/-- Only a rule in force is changed. -/
theorem rule?_of_changed {r : Rule} (h : .changed r ∈ s.events call) :
    (s.rule? r.id).isSome = true := by
  cases call with
  | update now j text description =>
    obtain ⟨r', t, hok, heq⟩ := mem_told.mp h
    obtain rfl : r = r' := Event.changed.inj heq
    obtain ⟨c, hc, f, -, rfl, -⟩ := update_eq_ok_iff.mp hok
    obtain rfl : c.rule.id = j := (mem_of_get? hc).2
    change (s.rule? c.id).isSome = true
    rw [rule?, show s.get? c.id = some c from hc]
    rfl
  | create | combine | delete =>
    obtain ⟨r', t, -, heq⟩ := mem_told.mp h
    exact absurd heq (by simp)
  | clear => simp [events] at h
  | load r' =>
    obtain ⟨f, -, heq⟩ := mem_loading.mp h
    exact absurd heq (by simp)
  | loadText now text =>
    simp only [events] at h
    cases hread : Rule.ofText now text with
    | error mismatch => simp [hread] at h
    | ok r' =>
      rw [hread] at h
      obtain ⟨f, -, heq⟩ := mem_loading.mp h
      exact absurd heq (by simp)
  | loadAll rules =>
    obtain ⟨r', -, h⟩ := List.mem_flatMap.mp h
    obtain ⟨f, -, heq⟩ := mem_loading.mp h
    exact absurd heq (by simp)

/-- An identifier without a rule stays so while no rule is made or loaded under it. -/
theorem rule?_foldl_eq_none {calls : List Call} (h : s.rule? id = none)
    (hmade : ∀ e ∈ s.history calls, e.makes id = false)
    (hloaded : ∀ e ∈ s.history calls, e.loads id = false) :
    (calls.foldl Store.after s).rule? id = none := by
  induction calls generalizing s with
  | nil => exact h
  | cons call calls ih =>
    rw [history, List.forall_mem_append] at hmade hloaded
    refine ih ?_ hmade.2 hloaded.2
    rw [Tells.after s call id]
    cases hlast : lastAbout id (s.events call) with
    | none => exact h
    | some e =>
      obtain ⟨hmem, hid⟩ := mem_of_lastAbout hlast
      cases e with
      | made r => exact absurd hid (Bool.eq_false_iff.mp (hmade.1 _ hmem))
      | loaded r => exact absurd hid (Bool.eq_false_iff.mp (hloaded.1 _ hmem))
      | changed r =>
        have hsome := rule?_of_changed hmem
        rw [id_of_concerns hid rfl, h] at hsome
        exact absurd hsome Bool.false_ne_true
      | removed | cleared => rfl

/-! ### The answers -/

/-- The store answers as the history tells: it has the rules that the history leaves in force, each
of them once, and decides by their formulas. -/
structure Answers (s : Store) (h : List Event) : Prop where
  get : ∀ id, s.rule? id = standing h id
  contains : ∀ id, s.contains id = (standing h id).isSome
  listed : ∀ r, r ∈ s.toList ↔ standing h r.id = some r
  nodup : (s.toList.map Rule.id).Nodup
  size : s.size = s.toList.length
  isEmpty : s.isEmpty = true ↔ ∀ id, standing h id = none
  evaluate : ∀ (tracing : Bool) id r members, standing h id = some r →
    ∃ f record d, r.formula = some f ∧ Record.ofJson (.object members) = .ok record ∧
      Service.evaluate ⟨s, tracing⟩ id (.object members) = .ok d ∧
        d.ruleId = id ∧ d.explanation.holds = f.holds record

/-- No call that names the identifier finds a rule. A combination names the first rule that it does
not find. -/
structure Misses (s : Store) (id : String) : Prop where
  get : s.rule? id = none
  update : ∀ now text description,
    s.update now id text description = .error (.unknownRule id)
  delete : s.delete id = .error (.unknownRule id)
  evaluate : ∀ (tracing : Bool) data,
    Service.evaluate ⟨s, tracing⟩ id data = .error (.unknownRule id)
  combine : ∀ fresh now (members : List Member), id ∈ members.map Prod.fst →
    ∃ j, s.contains j = false ∧ s.combine fresh now members = .error (.unknownRule j)

theorem nodup_run (limits : Limits) (calls : List Call) :
    ((Store.run limits calls).entries.map Compiled.id).Nodup := by
  refine run_induction (motive := fun s ↦ (s.entries.map Compiled.id).Nodup) List.nodup_nil ?_
  intro s call _ h
  exact after_induction (motive := fun s ↦ (s.entries.map Compiled.id).Nodup) h (nodup_erase h)
    List.nodup_nil fun _ r f h _ _ ↦ nodup_put h r f

/-- The list holds the rules in force and nothing else. -/
theorem mem_toList_iff (h : (s.entries.map Compiled.id).Nodup) {r : Rule} :
    r ∈ s.toList ↔ s.rule? r.id = some r := by
  rw [toList, List.mem_mergeSort, List.mem_map, rule?, Option.map_eq_some_iff]
  constructor
  · rintro ⟨c, hc, rfl⟩
    exact ⟨c, get?_of_mem h hc, rfl⟩
  · rintro ⟨c, hc, hrule⟩
    exact ⟨c, (mem_of_get? hc).1, hrule⟩

theorem nodup_toList (h : (s.entries.map Compiled.id).Nodup) : (s.toList.map Rule.id).Nodup := by
  have hperm : (s.toList.map Rule.id).Perm ((s.entries.map Compiled.toRule).map Rule.id) :=
    (List.mergeSort_perm _ _).map Rule.id
  rw [hperm.nodup_iff, List.map_map]
  exact h

theorem isEmpty_iff : s.isEmpty = true ↔ ∀ id, s.rule? id = none := by
  rw [isEmpty, List.isEmpty_iff]
  constructor
  · intro hnil id
    simp [rule?, get?, hnil]
  · intro hnone
    rw [List.eq_nil_iff_forall_not_mem]
    intro c hc
    have hmiss := List.find?_eq_none.mp (rule?_eq_none_iff.mp (hnone c.id)) c hc
    exact hmiss (by simp)

theorem exists_decision {c : Compiled} (hc : s.get? id = some c) (tracing : Bool)
    (members : List (String × Json)) :
    ∃ record d, Record.ofJson (.object members) = .ok record ∧
      Service.evaluate ⟨s, tracing⟩ id (.object members) = .ok d ∧
        d.ruleId = id ∧ d.explanation.holds = c.formula.holds record := by
  refine ⟨_, ⟨id, c.explain tracing _⟩, rfl, ?_, rfl, c.formula.holds_explain tracing _⟩
  rw [Service.evaluate, find_eq_ok_iff.mpr hc]
  rfl

theorem answers_run (limits : Limits) (calls : List Call) :
    (run limits calls).Answers ((ofLimits limits).history calls) := by
  have hrule := rule?_run limits calls
  have hnodup := nodup_run limits calls
  refine ⟨hrule, fun id ↦ ?_, fun r ↦ ?_, nodup_toList hnodup, ?_, ?_, ?_⟩
  · rw [← hrule, rule?, Option.isSome_map]
    rfl
  · rw [← hrule, mem_toList_iff hnodup]
  · simp [size, toList]
  · simp only [isEmpty_iff, hrule]
  · intro tracing id r members hr
    rw [← hrule, rule?, Option.map_eq_some_iff] at hr
    obtain ⟨c, hc, rfl⟩ := hr
    obtain ⟨record, d, hdecision⟩ := exists_decision hc tracing members
    exact ⟨c.formula, record, d, rfl, hdecision⟩

theorem misses_of_rule?_eq_none (h : s.rule? id = none) : s.Misses id := by
  have hget := rule?_eq_none_iff.mp h
  refine ⟨h, update_of_absent hget, delete_of_absent hget, fun tracing data ↦ ?_, ?_⟩
  · rw [Service.evaluate, find_of_get?_none hget]
    rfl
  · intro fresh now members hid
    obtain ⟨j, hj⟩ := exists_firstAbsent hid hget
    refine ⟨j, ?_, combine_of_firstAbsent hj fresh now⟩
    simpa using List.find?_some hj

/-- After a deletion, successful or not, no rule is in force under the identifier. -/
theorem rule?_after_delete (s : Store) (id : String) :
    (s.after (.delete id)).rule? id = none := by
  rw [rule?_eq_none_iff, Store.after]
  cases hc : s.get? id with
  | none =>
    rw [delete_of_absent hc]
    exact hc
  | some c =>
    rw [delete_eq_ok_iff.mpr ⟨c, hc, rfl, rfl⟩, kept, get?_erase, if_pos rfl]

/-- The rule that was deleted had been put in force before, so no rule is made under its identifier
again. -/
theorem makes_eq_false_of_deleted {earlier later : List Call} {result : Rule × Store}
    (hdelete : (run limits earlier).delete id = .ok result)
    (hanew : MadeAnew ((ofLimits limits).history (earlier ++ .delete id :: later))) :
    ∀ e ∈ (run limits (earlier ++ [.delete id])).history later, e.makes id = false := by
  intro e he
  obtain ⟨c, hc, -⟩ := delete_eq_ok_iff.mp hdelete
  have hrule : standing ((ofLimits limits).history earlier) id = some c.toRule := by
    rw [← rule?_run, rule?, hc]
    rfl
  obtain ⟨written, hwritten, hputs, rfl⟩ := exists_of_standing hrule
  rw [List.append_cons, history_append] at hanew
  refine (List.pairwise_append.mp hanew).2.2 written ?_ e he c.toRule hputs
  rw [history_append]
  exact List.mem_append_left _ hwritten

/-- Whatever calls were made on an empty store, it answers from the last event about each
identifier. An update is the same rule as before with another text, and a description that is not
given anew is kept. A call for other identifiers makes no difference. No rule is found where none
was left in force, and after a rule was deleted none is found until one is loaded under its
identifier. -/
theorem answers_from_last_write (limits : Limits) (calls : List Call) :
    (run limits calls).Answers ((ofLimits limits).history calls) ∧
    (∀ now id text description r t, (run limits calls).update now id text description = .ok (r, t) →
      ∃ old, standing ((ofLimits limits).history calls) id = some old ∧ r.id = id ∧
        r.createdAt = old.createdAt ∧ r.description = description.getD old.description) ∧
    (∀ id (call : Call), ¬call.Concerns id →
      ((run limits calls).after call).rule? id = (run limits calls).rule? id) ∧
    (∀ id, standing ((ofLimits limits).history calls) id = none → (run limits calls).Misses id) ∧
    ∀ earlier later id, calls = earlier ++ .delete id :: later →
      (∃ result, (run limits earlier).delete id = .ok result) →
      MadeAnew ((ofLimits limits).history calls) →
      (∀ e ∈ (run limits (earlier ++ [.delete id])).history later, e.loads id = false) →
        (run limits calls).Misses id := by
  refine ⟨answers_run limits calls, ?_, fun id call ↦ rule?_after_of_not_concerns, ?_, ?_⟩
  · intro now id text description r t hupdate
    obtain ⟨c, hc, f, -, rfl, -⟩ := update_eq_ok_iff.mp hupdate
    refine ⟨c.toRule, ?_, (mem_of_get? hc).2, rfl, rfl⟩
    rw [← rule?_run, rule?, hc]
    rfl
  · intro id hnone
    rw [← rule?_run] at hnone
    exact misses_of_rule?_eq_none hnone
  · rintro earlier later id rfl ⟨result, hdelete⟩ hanew hloaded
    have hmade := makes_eq_false_of_deleted hdelete hanew
    have hafter : (run limits (earlier ++ [.delete id])).rule? id = none := by
      rw [run, List.foldl_append]
      exact rule?_after_delete (run limits earlier) id
    refine misses_of_rule?_eq_none ?_
    rw [List.append_cons, run, List.foldl_append]
    exact rule?_foldl_eq_none hafter hmade hloaded

/-- A rule is made, changed and deleted; others are made and loaded after that. -/
def busyCalls : List Call :=
  [.create "first" ⟨0, 0⟩ "a = 'x'" "one", .create "second" ⟨1, 0⟩ " b != 'y' " "",
    .update ⟨2, 0⟩ "first" "a != 'x'" none, .update ⟨3, 0⟩ "first" "a =" none]

theorem answers_from_last_write_after_deleting :
    ∃ result, (run .standard busyCalls).delete "first" = .ok result ∧
      (run .standard (busyCalls ++ .delete "first" ::
        [.loadAll [⟨"third", "c = 'z'", "", none, ⟨4, 0⟩, ⟨4, 0⟩⟩],
          .combine "fourth" ⟨5, 0⟩ [("third", some .or), ("second", none)],
          .update ⟨6, 0⟩ "first" "a = 'x'" none])).Misses "first" := by
  obtain ⟨result, hdelete⟩ : ∃ result, (run .standard busyCalls).delete "first" = .ok result :=
    exists_ok_iff.mpr (by decide +kernel)
  refine ⟨result, hdelete, (answers_from_last_write _ _).2.2.2.2 busyCalls _ "first" rfl
    ⟨result, hdelete⟩ ?_ ?_⟩
  · decide +kernel
  · decide +kernel

end Store

end Criteria
