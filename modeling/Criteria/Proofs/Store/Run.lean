import Criteria.Proofs.Formula.Fields
import Criteria.Proofs.Formula.Read
import Criteria.Proofs.Store.Entries
import Criteria.Rule

/-!
Runs of calls on a store. A call that fails leaves the store as it was. Whatever calls were made,
the formula of every entry is the one that its text spells, as long as no rule was loaded with a
formula that its text does not spell.
-/

set_option autoImplicit false
set_option relaxedAutoImplicit false

namespace Criteria

namespace Store

/-- Puts the rule in force that a JSON text holds. -/
def loadText (s : Store) (now : Instant) (text : String) : Except Fault (Rule × Store) := do
  let r ← (Rule.ofText now text).mapError .json
  s.load r

/-- A call that may change a store, with what it takes from outside. -/
inductive Call where
  | create (id : String) (now : Instant) (text description : String)
  | update (now : Instant) (id text : String) (description : Option String)
  | combine (id : String) (now : Instant) (members : List (String × Option Connective))
  | delete (id : String)
  | clear
  | load (rule : Rule)
  | loadText (now : Instant) (text : String)
  | loadAll (rules : List Rule)

/-- The store that the caller goes on with. -/
def kept (s : Store) : Except Fault (Rule × Store) → Store
  | .ok (_, s') => s'
  | .error _ => s

/-- The store after a call. -/
def after (s : Store) : Call → Store
  | .create id now text description => s.kept (s.create id now text description)
  | .update now id text description => s.kept (s.update now id text description)
  | .combine id now members => s.kept (s.combine id now members)
  | .delete id => s.kept (s.delete id)
  | .clear => s.clear
  | .load rule => s.kept (s.load rule)
  | .loadText now text => s.kept (s.loadText now text)
  | .loadAll rules => (s.loadAll rules).2

/-- The store after calls on an empty one. -/
def run (limits : Limits) (calls : List Call) : Store :=
  calls.foldl after (.ofLimits limits)

/-- What holds before a call and after it if it succeeds, holds after it. -/
theorem kept_induction {motive : Store → Prop} {s : Store} {e : Except Fault (Rule × Store)}
    (h : motive s) (hok : ∀ r s', e = .ok (r, s') → motive s') : motive (s.kept e) := by
  cases e with
  | error fault => exact h
  | ok result => exact hok result.1 result.2 rfl

/-- The rules that a call may put in force. Those that it makes itself carry no formula. -/
inductive Puts (s : Store) : Call → Rule → Prop
  | create {id text description : String} {now : Instant} :
    Puts s (.create id now text description) ⟨id, Text.trim text, description, none, now, now⟩
  | update {id text : String} {description : Option String} {now : Instant} {c : Compiled}
    (hc : s.get? id = some c) :
    Puts s (.update now id text description) (updated c now text description)
  | combine {id text description : String} {now : Instant}
    {members : List (String × Option Connective)} :
    Puts s (.combine id now members) ⟨id, Text.trim text, description, none, now, now⟩
  | load {rule : Rule} : Puts s (.load rule) rule
  | loadText {now : Instant} {text : String} {rule : Rule}
    (hrule : Rule.ofText now text = .ok rule) : Puts s (.loadText now text) rule
  | loadAll {rules : List Rule} {rule : Rule} (hrule : rule ∈ rules) :
    Puts s (.loadAll rules) rule

/-- A call takes rules out of force, or puts in some whose formulas are found. What neither of these
breaks, no call breaks. -/
theorem after_induction {motive : Store → Prop} {s : Store} {call : Call} (h : motive s)
    (herase : ∀ id, motive (s.erase id)) (hclear : motive s.clear)
    (hput : ∀ s r f, motive s → Puts s call r → r.resolve s.limits = .ok f → motive (s.put r f)) :
    motive (s.after call) := by
  have hload {s : Store} {r : Rule} (h : motive s) (hputs : Puts s call r) :
      ∀ r' s', s.load r = .ok (r', s') → motive s' := by
    intro r' s' hok
    obtain ⟨f, hresolve, -, rfl⟩ := load_eq_ok_iff.mp hok
    exact hput s r f h hputs hresolve
  cases call with
  | create id now text description => exact kept_induction h (hload h .create)
  | update now id text description =>
    refine kept_induction h fun r s' hok ↦ ?_
    obtain ⟨c, hc, hok⟩ := bind_eq_ok_iff.mp hok
    exact hload h (.update (find_eq_ok_iff.mp hc)) r s' hok
  | combine id now members =>
    refine kept_induction h fun r s' hok ↦ ?_
    obtain ⟨_, _, _, _, _, hcreate⟩ := exists_create_of_combine hok
    exact hload h .combine r s' hcreate
  | delete id =>
    refine kept_induction h fun r s' hok ↦ ?_
    obtain ⟨_, _, _, rfl⟩ := delete_eq_ok_iff.mp hok
    exact herase id
  | clear => exact hclear
  | load rule => exact kept_induction h (hload h .load)
  | loadText now text =>
    refine kept_induction h fun r s' hok ↦ ?_
    obtain ⟨rule, hrule, hok⟩ := bind_eq_ok_iff.mp hok
    exact hload h (.loadText (mapError_eq_ok_iff.mp hrule)) r s' hok
  | loadAll rules =>
    refine loadAll_induction (motive := fun s rest result ↦
      (∀ rule ∈ rest, rule ∈ rules) → motive s → motive result.2) ?_ ?_ ?_ s rules
      (fun _ hrule ↦ hrule) h
    · intro s _ h
      exact h
    · intro s r fault rest _ ih hrest h
      exact ih (List.forall_mem_cons.mp hrest).2 h
    · intro s r f rest hresolve ih hrest h
      obtain ⟨hr, hrest⟩ := List.forall_mem_cons.mp hrest
      exact ih hrest (hput s r f h (.loadAll hr) hresolve)

/-- What holds of an empty store, and after each call if it held before, holds after all of them. -/
theorem run_induction {motive : Store → Prop} {limits : Limits} {calls : List Call}
    (h : motive (.ofLimits limits)) (hafter : ∀ s call, call ∈ calls → motive s →
      motive (s.after call)) : motive (run limits calls) := by
  have hfold (rest : List Call) (hrest : ∀ call ∈ rest, call ∈ calls) (s : Store) (h : motive s) :
      motive (rest.foldl Store.after s) := by
    induction rest generalizing s with
    | nil => exact h
    | cons call rest ih =>
      rw [List.forall_mem_cons] at hrest
      exact ih hrest.2 _ (hafter s call hrest.1 h)
  exact hfold calls (fun _ hcall ↦ hcall) _ h

end Store

/-! ### Faithful stores -/

/-- A formula that the rule carries is the one that its text spells. -/
def Rule.Faithful (limits : Limits) (r : Rule) : Prop :=
  ∀ f, r.formula = some f → Formula.read limits r.text = .ok f

theorem Rule.Faithful.read_of_resolve {limits : Limits} {r : Rule} {f : Formula}
    (h : r.Faithful limits) (hresolve : r.resolve limits = .ok f) :
    Formula.read limits r.text = .ok f := by
  unfold Rule.resolve at hresolve
  cases hformula : r.formula with
  | none => simpa [hformula] using hresolve
  | some g =>
    simp only [hformula] at hresolve
    split at hresolve
    · obtain rfl : g = f := Except.ok.inj hresolve
      exact h g hformula
    · exact absurd hresolve (by simp)

namespace Store

/-- The rules that a call puts in force as they are given carry no formula but their own. -/
def Call.Faithful (limits : Limits) : Call → Prop
  | .load rule => rule.Faithful limits
  | .loadText now text => ∀ rule, Rule.ofText now text = .ok rule → rule.Faithful limits
  | .loadAll rules => ∀ rule ∈ rules, rule.Faithful limits
  | _ => True

/-- Every entry stands once, keeps no cache and decides by the formula that its text spells. -/
structure Faithful (limits : Limits) (s : Store) : Prop where
  limits_eq : s.limits = limits
  nodup : (s.entries.map Compiled.id).Nodup
  cache : ∀ c ∈ s.entries, c.rule.formula = none
  reads : ∀ c ∈ s.entries, Formula.read limits c.rule.text = .ok c.formula

namespace Faithful

variable {limits : Limits} {s s' : Store} {r r' : Rule} {f : Formula}

theorem ofLimits (limits : Limits) : (Store.ofLimits limits).Faithful limits where
  limits_eq := rfl
  nodup := List.nodup_nil
  cache := by simp [Store.ofLimits]
  reads := by simp [Store.ofLimits]

theorem erase (h : s.Faithful limits) (id : String) : (s.erase id).Faithful limits where
  limits_eq := h.limits_eq
  nodup := nodup_erase h.nodup id
  cache c hc := h.cache c (List.mem_filter.mp hc).1
  reads c hc := h.reads c (List.mem_filter.mp hc).1

theorem clear (h : s.Faithful limits) : s.clear.Faithful limits where
  limits_eq := h.limits_eq
  nodup := List.nodup_nil
  cache := by simp [Store.clear]
  reads := by simp [Store.clear]

theorem put (h : s.Faithful limits) (hread : Formula.read limits r.text = .ok f) :
    (s.put r f).Faithful limits where
  limits_eq := h.limits_eq
  nodup := nodup_put h.nodup r f
  cache c hc := by
    rcases List.mem_cons.mp hc with rfl | hc
    · rfl
    · exact (h.erase r.id).cache c hc
  reads c hc := by
    rcases List.mem_cons.mp hc with rfl | hc
    · exact hread
    · exact (h.erase r.id).reads c hc

/-- No call breaks the agreement of texts and formulas. -/
theorem after (h : s.Faithful limits) {call : Call} (hcall : call.Faithful limits) :
    (s.after call).Faithful limits := by
  refine after_induction h h.erase h.clear fun s r f h hputs hresolve ↦ ?_
  have hr : r.Faithful limits := by
    cases hputs with
    | create | update | combine => exact fun f hf ↦ absurd hf (Option.some_ne_none f).symm
    | load => exact hcall
    | loadText hrule => exact hcall r hrule
    | loadAll hrule => exact hcall r hrule
  rw [h.limits_eq] at hresolve
  exact h.put (hr.read_of_resolve hresolve)

theorem run (limits : Limits) {calls : List Call} (hcalls : ∀ call ∈ calls, call.Faithful limits) :
    (Store.run limits calls).Faithful limits :=
  run_induction (ofLimits limits) fun _ call hcall h ↦ h.after (hcalls call hcall)

/-- Every entry is found by its identifier. -/
theorem get?_of_mem (h : s.Faithful limits) {c : Compiled} (hc : c ∈ s.entries) :
    s.get? c.id = some c :=
  Store.get?_of_mem h.nodup hc

/-- A new rule is accepted as its text is, blanks and all, and then decides by what it spells. -/
theorem create_iff (h : s.Faithful limits) (id text description : String) (now : Instant) :
    ((∃ result, s.create id now text description = .ok result) ↔
      ∃ f, Formula.read limits text = .ok f) ∧
    ∀ r s', s.create id now text description = .ok (r, s') →
      ∃ c, s'.get? id = some c ∧ Formula.read limits text = .ok c.formula := by
  simp only [Prod.exists, create_eq_ok_iff, h.limits_eq, Formula.read_trim_eq_ok_iff]
  constructor
  · constructor
    · rintro ⟨_, _, f, hread, -, -⟩
      exact ⟨f, hread⟩
    · rintro ⟨f, hread⟩
      exact ⟨_, _, f, hread, rfl, rfl⟩
  · rintro r s' ⟨f, hread, -, rfl⟩
    exact ⟨_, get?_put_self _ _ f, hread⟩

/-- A rule in force takes a new text as the text is accepted, and then decides by what it spells. -/
theorem update_iff (h : s.Faithful limits) {id : String} (hid : (s.get? id).isSome = true)
    (text : String) (now : Instant) (description : Option String) :
    ((∃ result, s.update now id text description = .ok result) ↔
      ∃ f, Formula.read limits text = .ok f) ∧
    ∀ r s', s.update now id text description = .ok (r, s') →
      ∃ c, s'.get? id = some c ∧ Formula.read limits text = .ok c.formula := by
  obtain ⟨old, hold⟩ := Option.isSome_iff_exists.mp hid
  simp only [Prod.exists, update_eq_ok_iff, h.limits_eq, Formula.read_trim_eq_ok_iff]
  constructor
  · constructor
    · rintro ⟨_, _, _, -, f, hread, -, -⟩
      exact ⟨f, hread⟩
    · rintro ⟨f, hread⟩
      exact ⟨_, _, old, hold, f, hread, rfl, rfl⟩
  · rintro r s' ⟨c, hc, f, hread, -, rfl⟩
    obtain rfl : c.rule.id = id := (mem_of_get? hc).2
    exact ⟨_, get?_put_self _ (updated c now text description) f, hread⟩

end Faithful

/-- After any calls on an empty store, failed ones too, each entry stands under its own identifier,
keeps no cache, and decides by the formula that its text spells, of whose fields it keeps the names.
In each such state a text is accepted for a new rule or an old one exactly if it can be read, and
what it spells is put in force. -/
theorem stored_formulas_are_of_texts (limits : Limits) (calls : List Call)
    (hcalls : ∀ call ∈ calls, call.Faithful limits) :
    (run limits calls).limits = limits ∧
    (∀ c ∈ (run limits calls).entries, (run limits calls).get? c.id = some c) ∧
    (∀ id c, (run limits calls).get? id = some c →
      c.rule.id = id ∧ c.rule.formula = none ∧ Formula.read limits c.rule.text = .ok c.formula ∧
        c.fieldNames.Nodup ∧ ∀ name, name ∈ c.fieldNames ↔ c.formula.Mentions name) ∧
    (∀ id now text description,
      ((∃ result, (run limits calls).create id now text description = .ok result) ↔
        ∃ f, Formula.read limits text = .ok f) ∧
      ∀ r s', (run limits calls).create id now text description = .ok (r, s') →
        ∃ c, s'.get? id = some c ∧ Formula.read limits text = .ok c.formula) ∧
    ∀ id now text description, ((run limits calls).get? id).isSome = true →
      ((∃ result, (run limits calls).update now id text description = .ok result) ↔
        ∃ f, Formula.read limits text = .ok f) ∧
      ∀ r s', (run limits calls).update now id text description = .ok (r, s') →
        ∃ c, s'.get? id = some c ∧ Formula.read limits text = .ok c.formula := by
  have h := Faithful.run limits hcalls
  refine ⟨h.limits_eq, fun _ hc ↦ h.get?_of_mem hc, fun id c hc ↦ ?_,
    fun id now text description ↦ h.create_iff id text description now,
    fun id now text description hid ↦ h.update_iff hid text now description⟩
  obtain ⟨hmem, hid⟩ := mem_of_get? hc
  exact ⟨hid, h.cache c hmem, h.reads c hmem, Formula.nodup_fieldNames c.formula,
    fun _ ↦ Formula.mem_fieldNames⟩

/-- A text with blanks, one that is refused, a rule with its formula, a new text and a rule made of
two: the last one decides by the formula of its own text. -/
theorem stored_formulas_are_of_texts_after_combining :
    ∃ f c, (run ⟨12, 2⟩ [.create "first" ⟨0, 0⟩ " a > 1 " "", .create "second" ⟨0, 0⟩ "a >" "",
        .load ⟨"third", "b = 'x'", "", some f, ⟨0, 0⟩, ⟨0, 0⟩⟩,
        .update ⟨1, 0⟩ "first" "\ta == 2" none,
        .combine "fourth" ⟨2, 0⟩ [("first", some .and), ("third", none)],
        .delete "first"]).get? "fourth" = some c ∧
      c.rule.text = "(a == 2) AND (b = 'x')" ∧
        Formula.read ⟨12, 2⟩ c.rule.text = .ok c.formula := by
  have hfourth {calls : List Call} (hcalls : ∀ call ∈ calls, call.Faithful ⟨12, 2⟩)
      (htext : ((run ⟨12, 2⟩ calls).get? "fourth").map (fun c ↦ c.rule.text) =
        some "(a == 2) AND (b = 'x')") :
      ∃ c, (run ⟨12, 2⟩ calls).get? "fourth" = some c ∧
        c.rule.text = "(a == 2) AND (b = 'x')" ∧
          Formula.read ⟨12, 2⟩ c.rule.text = .ok c.formula := by
    obtain ⟨c, hc, htext⟩ := Option.map_eq_some_iff.mp htext
    obtain ⟨-, -, hentries, -⟩ := stored_formulas_are_of_texts ⟨12, 2⟩ calls hcalls
    exact ⟨c, hc, htext, (hentries "fourth" c hc).2.2.1⟩
  have hcached := Formula.read_eq_ok_get ⟨12, 2⟩ "b = 'x'" (by decide +kernel)
  refine ⟨(Formula.read ⟨12, 2⟩ "b = 'x'").toOption.get (by decide +kernel),
    hfourth ?_ (by decide +kernel)⟩
  simp only [List.forall_mem_cons, Call.Faithful, Rule.Faithful, true_and]
  refine ⟨?_, by simp⟩
  rintro f ⟨⟩
  exact hcached

end Store

end Criteria
