import Criteria.Proofs.Combination
import Criteria.Proofs.Service.Idle
import Criteria.Proofs.Store.LastWrite

/-!
Combined rules through the life of a service. Requests reach a store only by its own calls and load
no formulas, so in every state that they reach each formula is the one that its text spells. A
combination that succeeds then decides as its members do at that moment, and what becomes of these
later makes no difference to it.
-/

set_option autoImplicit false
set_option relaxedAutoImplicit false

namespace Criteria

namespace Request

variable {request : Request} {fresh : Fresh} {call : Store.Call}

/-- The call on the store by which a request may change it. -/
def call? (fresh : Fresh) : Request → Option Store.Call
  | .create text description => some (.create fresh.id fresh.now text description)
  | .update id text description => some (.update fresh.now id text description)
  | .delete id => some (.delete id)
  | .combine members => some (.combine fresh.id fresh.now members)
  | .list | .get _ | .validate _ | .evaluate .. => none

/-- Whether the request asks to change the rule with the identifier, or to delete it. -/
def Alters (id : String) : Request → Prop
  | .update j _ _ | .delete j => j = id
  | _ => False

theorem faithful_of_call? (h : request.call? fresh = some call) (limits : Limits) :
    call.Faithful limits := by
  cases request <;> cases h <;> trivial

/-- A request that does not ask to alter a rule concerns it only if it makes one in its place. -/
theorem not_concerns_of_call? {id : String} (h : request.call? fresh = some call)
    (hfresh : fresh.id ≠ id) (halters : ¬request.Alters id) : ¬call.Concerns id := by
  cases request <;> cases h <;> assumption

end Request

namespace Store

variable {limits : Limits} {s s' : Store} {r : Rule} {id : String} {members : List Member}

/-- The formulas of the members, where each text spells the formula of its entry. -/
theorem formulas_of_parts (h : s.Faithful limits) {parts : List Part} {fs : List Formula}
    (hparts : List.Forall₂ (fun member p ↦
      ∃ c, s.get? member.1 = some c ∧ p = (⟨c.rule.text, member.2⟩ : Part)) members parts)
    (hreads : List.Forall₂ (fun p g ↦ Formula.read limits p.text = .ok g) parts fs) :
    parts.map Part.connective = members.map Prod.snd ∧
      List.Forall₂ (fun member g ↦ ∃ c, s.get? member.1 = some c ∧ c.formula = g) members fs := by
  induction hparts generalizing fs with
  | nil =>
    cases hreads
    exact ⟨rfl, .nil⟩
  | @cons member p members parts hp _ ih =>
    cases hreads with
    | @cons _ g _ fs hg hreads =>
      obtain ⟨c, hc, rfl⟩ := hp
      obtain ⟨hconnectives, hformulas⟩ := ih hreads
      have hformula : c.formula = g :=
        Except.ok.inj ((h.reads c (mem_of_get? hc).1).symm.trans hg)
      exact ⟨by simp [hconnectives], .cons ⟨c, hc, hformula⟩ hformulas⟩

/-- What a combination puts in force has the formulas of its members, joined from left to right. -/
theorem exists_chain_of_combine (h : s.Faithful limits) {now : Instant}
    (hcombine : s.combine id now members = .ok (r, s')) :
    ∃ (c : Compiled) (f : Formula) (fs : List Formula) (connectives : List Connective),
      members.dropLast.map Prod.snd = connectives.map some ∧
        List.Forall₂ (fun member g ↦ ∃ c, s.get? member.1 = some c ∧ c.formula = g)
          members (f :: fs) ∧
        s'.get? r.id = some c ∧ c.formula = chain .join f (connectives.zip fs) := by
  obtain ⟨parts, text, description, hfound, hjoined, hcreate⟩ := exists_create_of_combine hcombine
  have hpresent : s.firstAbsent members = none := by
    by_contra habsent
    obtain ⟨j, hj⟩ := Option.ne_none_iff_exists'.mp habsent
    rw [parts_of_firstAbsent hj] at hfound
    exact absurd hfound (by simp)
  obtain ⟨parts', hfound', hparts⟩ := exists_parts hpresent
  obtain rfl : parts' = parts := Except.ok.inj (hfound'.symm.trans hfound)
  rw [h.limits_eq] at hjoined
  obtain ⟨f, fs, connectives, hreads, hconnectives, hwhole⟩ := Part.exists_chain_of_combine hjoined
  obtain ⟨hsigns, hformulas⟩ := formulas_of_parts h hparts hreads
  obtain ⟨g, hg, rfl, rfl⟩ := create_eq_ok_iff.mp hcreate
  -- The text is trimmed and read once more, which comes to the same formula.
  rw [h.limits_eq, Formula.read_trim_eq_ok_iff, hwhole] at hg
  refine ⟨_, f, fs, connectives, ?_, hformulas, get?_put_self s _ g, (Except.ok.inj hg).symm⟩
  rw [← hconnectives, List.map_dropLast, List.map_dropLast, hsigns]

end Store

namespace Service

variable {limits : Limits} {s t : Service} {fresh : Fresh} {request : Request} {id : String}

/-! ### Requests after one another -/

theorem store_handle (s : Service) (fresh : Fresh) (request : Request) :
    (s.handle fresh request).2.store = (request.call? fresh).elim s.store s.store.after := by
  cases request with
  | list | get | validate | evaluate => rw [handle_eq_self (Or.inr rfl)]; rfl
  | create text description =>
    simp only [handle, dispatch, Request.call?, Option.elim, Store.after]
    cases s.store.create fresh.id fresh.now text description <;> rfl
  | update id text description =>
    simp only [handle, dispatch, Request.call?, Option.elim, Store.after]
    cases s.store.update fresh.now id text description <;> rfl
  | delete id =>
    simp only [handle, dispatch, Request.call?, Option.elim, Store.after]
    cases s.store.delete id <;> rfl
  | combine members =>
    simp only [handle, dispatch, Request.call?, Option.elim, Store.after]
    cases s.store.combine fresh.id fresh.now members <;> rfl

/-- The service after requests, each with what its call takes from outside. -/
def afterRequests (s : Service) (calls : List (Fresh × Request)) : Service :=
  calls.foldl (fun s call ↦ (s.handle call.1 call.2).2) s

/-- No request breaks the agreement of texts and formulas. -/
theorem faithful_handle (h : s.store.Faithful limits) (fresh : Fresh) (request : Request) :
    (s.handle fresh request).2.store.Faithful limits := by
  rw [store_handle]
  cases hcall : request.call? fresh with
  | none => exact h
  | some call => exact h.after (Request.faithful_of_call? hcall limits)

theorem faithful_afterRequests (h : s.store.Faithful limits) (calls : List (Fresh × Request)) :
    (s.afterRequests calls).store.Faithful limits := by
  induction calls generalizing s with
  | nil => exact h
  | cons call calls ih => exact ih (faithful_handle h call.1 call.2)

/-! ### What a rule decides -/

/-- What the rule in force under an identifier decides about a record. -/
def decide? (s : Service) (id : String) (record : Record) : Option Bool :=
  (s.store.get? id).map fun c ↦ (c.explain s.tracing record).holds

theorem decide?_of_get? {c : Compiled} (h : s.store.get? id = some c) (record : Record) :
    s.decide? id record = some (c.formula.holds record) := by
  rw [decide?, h]
  exact congrArg some (c.formula.holds_explain s.tracing record)

/-- A rule with its formula decides the same wherever it is in force. -/
theorem decide?_congr (h : t.store.rule? id = s.store.rule? id) (record : Record) :
    t.decide? id record = s.decide? id record := by
  have hrule (s : Service) : s.decide? id record =
      (s.store.rule? id).bind fun r ↦ r.formula.map fun f ↦ f.holds record := by
    rw [Store.rule?]
    cases hc : s.store.get? id with
    | none => rw [decide?, hc]; rfl
    | some c => rw [decide?_of_get? hc]; rfl
  rw [hrule, hrule, h]

/-- A request that neither alters a rule nor makes one in its place leaves its decisions alone. -/
theorem decide?_handle (hfresh : fresh.id ≠ id) (halters : ¬request.Alters id)
    (record : Record) : (s.handle fresh request).2.decide? id record = s.decide? id record := by
  refine decide?_congr ?_ record
  rw [store_handle]
  cases hcall : request.call? fresh with
  | none => rfl
  | some call =>
    exact Store.rule?_after_of_not_concerns (Request.not_concerns_of_call? hcall hfresh halters)

theorem decide?_afterRequests {calls : List (Fresh × Request)}
    (h : ∀ call ∈ calls, call.1.id ≠ id ∧ ¬call.2.Alters id) (record : Record) :
    (s.afterRequests calls).decide? id record = s.decide? id record := by
  induction calls generalizing s with
  | nil => rfl
  | cons call calls ih =>
    rw [List.forall_mem_cons] at h
    exact (ih h.2).trans (decide?_handle h.1.1 h.1.2 record)

theorem map_decide?_of_get? {members : List Member} {fs : List Formula}
    (h : List.Forall₂ (fun member g ↦ ∃ c, s.store.get? member.1 = some c ∧ c.formula = g)
      members fs) (record : Record) :
    members.map (fun member ↦ s.decide? member.1 record) =
      fs.map fun f ↦ some (f.holds record) := by
  induction h with
  | nil => rfl
  | cons hc _ ih =>
    obtain ⟨c, hc, rfl⟩ := hc
    rw [List.map_cons, List.map_cons, decide?_of_get? hc, ih]

/-- A combination that succeeds, in any state that requests on an empty store reach, decides as its
members do at that moment, with the connectives between them, from left to right. This stays so
after any further requests that do not alter the new rule itself and make no rule under its
identifier, whatever they do to the members. -/
theorem combined_rule_decides_as_members (limits : Limits) (tracing : Bool)
    (earlier later : List (Fresh × Request)) (fresh : Fresh) (members : List Member) (r : Rule)
    (store : Store)
    (hcombine : (afterRequests ⟨.ofLimits limits, tracing⟩ earlier).store.combine fresh.id fresh.now
      members = .ok (r, store))
    (hlater : ∀ call ∈ later, call.1.id ≠ r.id ∧ ¬call.2.Alters r.id) :
    ∃ connectives : List Connective, members.dropLast.map Prod.snd = connectives.map some ∧
      ∀ record : Record, ∃ (first : Bool) (rest : List Bool),
        (members.map fun member ↦
          (afterRequests ⟨.ofLimits limits, tracing⟩ earlier).decide? member.1 record) =
            (first :: rest).map some ∧
        (afterRequests ⟨store, tracing⟩ later).decide? r.id record =
          some (chain Connective.apply first (connectives.zip rest)) := by
  have hfaithful := faithful_afterRequests (s := ⟨.ofLimits limits, tracing⟩)
    (Store.Faithful.ofLimits limits) earlier
  obtain ⟨c, f, fs, connectives, hconnectives, hformulas, hc, hchain⟩ :=
    Store.exists_chain_of_combine hfaithful hcombine
  refine ⟨connectives, hconnectives, fun record ↦
    ⟨f.holds record, fs.map fun g ↦ g.holds record, ?_, ?_⟩⟩
  · rw [map_decide?_of_get? hformulas]
    simp
  · rw [decide?_afterRequests hlater, decide?_of_get? hc, hchain, holds_chain, List.zip_map_right]
    rfl

/-- Two rules are made, and a text is refused. -/
def twoRules : List (Fresh × Request) :=
  [(⟨"0", ⟨0, 0⟩⟩, .create " a = 'x' " ""), (⟨"1", ⟨1, 0⟩⟩, .create "b > 2 OR c != 'y'" ""),
    (⟨"2", ⟨2, 0⟩⟩, .create "a =" "")]

/-- The first rule gets another text, the second one is deleted, and a rule is made of the
combination. -/
def membersAltered : List (Fresh × Request) :=
  [(⟨"4", ⟨4, 0⟩⟩, .update "0" "a != 'x'" none), (⟨"5", ⟨5, 0⟩⟩, .delete "1"),
    (⟨"6", ⟨6, 0⟩⟩, .combine [("3", none)])]

theorem combined_rule_decides_as_members_after_deleting :
    ∃ r store, (afterRequests ⟨.ofLimits .standard, true⟩ twoRules).store.combine "3" ⟨3, 0⟩
        [("0", some .and), ("1", some .or), ("0", none)] = .ok (r, store) ∧
      ∀ record : Record, ∃ p q : Bool,
        (afterRequests ⟨.ofLimits .standard, true⟩ twoRules).decide? "0" record = some p ∧
        (afterRequests ⟨.ofLimits .standard, true⟩ twoRules).decide? "1" record = some q ∧
        (afterRequests ⟨store, true⟩ membersAltered).decide? r.id record = some (p && q || p) := by
  have hmade : ((afterRequests ⟨.ofLimits .standard, true⟩ twoRules).store.combine "3" ⟨3, 0⟩
      [("0", some .and), ("1", some .or), ("0", none)]).toOption.map (fun result ↦ result.1.id) =
        some "3" := by
    decide +kernel
  obtain ⟨⟨r, store⟩, hcombine, hmade⟩ := Option.map_eq_some_iff.mp hmade
  have hid : r.id = "3" := hmade
  rw [toOption_eq_some_iff] at hcombine
  obtain ⟨connectives, hconnectives, hdecides⟩ := combined_rule_decides_as_members .standard true
    twoRules membersAltered ⟨"3", ⟨3, 0⟩⟩ _ r store hcombine
    (by simp [membersAltered, hid, Request.Alters])
  obtain rfl : connectives = [.and, .or] :=
    List.map_injective_iff.mpr (Option.some_injective _) hconnectives.symm
  refine ⟨r, store, hcombine, fun record ↦ ?_⟩
  obtain ⟨p, rest, hmembers, hfold⟩ := hdecides record
  obtain ⟨q, t, rfl⟩ : ∃ q t, rest = [q, t] :=
    List.length_eq_two.mp (by simpa using congrArg List.length hmembers.symm)
  simp only [List.map_cons, List.map_nil, List.cons.injEq, and_true] at hmembers
  obtain ⟨hp, hq, ht⟩ := hmembers
  obtain rfl : p = t := Option.some.inj (hp.symm.trans ht)
  exact ⟨p, q, hp, hq, hfold⟩

end Service

end Criteria
