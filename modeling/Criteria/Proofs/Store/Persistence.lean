import Criteria.Proofs.Formula.Check
import Criteria.Proofs.Rule.Json
import Criteria.Proofs.Store.Run

/-!
Rules that outlive their store. A rule that was made of a text can be written as JSON and loaded
into any store with the same limits, where it is the same rule and decides by the same formula.
-/

set_option autoImplicit false
set_option relaxedAutoImplicit false

namespace Criteria

/-- An entry that decides by the formula that its text spells, and for whose moments dates are
kept. -/
structure Compiled.IsMade (limits : Limits) (c : Compiled) : Prop where
  reads : Formula.read limits c.rule.text = .ok c.formula
  dated : c.rule.IsDated

namespace Store

variable {limits : Limits} {s s' t : Store} {c : Compiled} {call : Call}

/-! ### Moments -/

/-- What a call takes from outside has moments for which dates are kept. -/
def Call.IsDated : Call → Prop
  | .create _ now _ _ | .update now _ _ _ | .combine _ now _ | .loadText now _ => now.IsKept
  | .load rule => rule.IsDated
  | .loadAll rules => ∀ rule ∈ rules, rule.IsDated
  | .delete _ | .clear => True

/-- Dates are kept for the moments of all rules in force. -/
structure Dated (limits : Limits) (s : Store) : Prop where
  limits_eq : s.limits = limits
  dated : ∀ c ∈ s.entries, c.rule.IsDated

namespace Dated

theorem ofLimits (limits : Limits) : (Store.ofLimits limits).Dated limits where
  limits_eq := rfl
  dated := by simp [Store.ofLimits]

theorem erase (h : s.Dated limits) (id : String) : (s.erase id).Dated limits where
  limits_eq := h.limits_eq
  dated c hc := h.dated c (List.mem_filter.mp hc).1

theorem clear (h : s.Dated limits) : s.clear.Dated limits where
  limits_eq := h.limits_eq
  dated := by simp [Store.clear]

theorem put (h : s.Dated limits) {r : Rule} (hr : r.IsDated) (f : Formula) :
    (s.put r f).Dated limits where
  limits_eq := h.limits_eq
  dated c hc := by
    rcases List.mem_cons.mp hc with rfl | hc
    · exact ⟨hr.created, hr.updated⟩
    · exact (h.erase r.id).dated c hc

/-- A rule that is updated keeps the moment at which it was made. -/
theorem isDated_of_puts (h : s.Dated limits) (hcall : call.IsDated) {r : Rule}
    (hputs : s.Puts call r) : r.IsDated := by
  cases hputs with
  | create | combine => exact ⟨hcall, hcall⟩
  | update hc => exact ⟨(h.dated _ (mem_of_get? hc).1).created, hcall⟩
  | load => exact hcall
  | loadText hrule => exact Rule.isDated_of_ofText hcall hrule
  | loadAll hrule => exact hcall r hrule

theorem after (h : s.Dated limits) (hcall : call.IsDated) : (s.after call).Dated limits := by
  refine after_induction h h.erase h.clear ?_
  intro s r f h hputs _
  exact h.put (h.isDated_of_puts hcall hputs) f

theorem run (limits : Limits) {calls : List Call} (hcalls : ∀ call ∈ calls, call.IsDated) :
    (Store.run limits calls).Dated limits :=
  run_induction (ofLimits limits) fun _ call hcall h ↦ h.after (hcalls call hcall)

end Dated

/-! ### Rules made of texts -/

/-- The call succeeds in making a rule of a text, or in giving it another one, and puts this entry
in force for it. -/
inductive Makes (s : Store) (c : Compiled) : Call → Prop
  | create {id text description : String} {now : Instant} {r : Rule} {s' : Store}
    (h : s.create id now text description = .ok (r, s')) (hc : s'.get? r.id = some c) :
    Makes s c (.create id now text description)
  | update {id text : String} {description : Option String} {now : Instant} {r : Rule} {s' : Store}
    (h : s.update now id text description = .ok (r, s')) (hc : s'.get? r.id = some c) :
    Makes s c (.update now id text description)
  | combine {id : String} {now : Instant} {members : List (String × Option Connective)} {r : Rule}
    {s' : Store} (h : s.combine id now members = .ok (r, s')) (hc : s'.get? r.id = some c) :
    Makes s c (.combine id now members)

theorem Makes.isMade (h : s.Makes c call) (hs : s.Dated limits) (hcall : call.IsDated) :
    c.IsMade limits := by
  -- The text has no cache, so it was read, and its formula stands in the entry.
  have hput {r : Rule} {f : Formula} (hputs : s.Puts call r)
      (hread : Formula.read s.limits r.text = .ok f) (hc : (s.put r f).get? r.id = some c) :
      c.IsMade limits := by
    rw [get?_put_self, Option.some.injEq] at hc
    subst hc
    rw [hs.limits_eq] at hread
    have hdated := hs.isDated_of_puts hcall hputs
    exact ⟨hread, hdated.created, hdated.updated⟩
  cases h with
  | create h hc =>
    obtain ⟨f, hread, rfl, rfl⟩ := create_eq_ok_iff.mp h
    exact hput .create hread hc
  | update h hc =>
    obtain ⟨old, hold, f, hread, rfl, rfl⟩ := update_eq_ok_iff.mp h
    exact hput (.update hold) hread hc
  | combine h hc =>
    obtain ⟨_, _, _, _, _, hcreate⟩ := exists_create_of_combine h
    obtain ⟨f, hread, rfl, rfl⟩ := create_eq_ok_iff.mp hcreate
    exact hput .combine hread hc

/-- What combining makes is in force afterwards. -/
theorem exists_makes_of_combine {id : String} {now : Instant}
    {members : List (String × Option Connective)}
    (h : (s.combine id now members).toOption.isSome = true) :
    ∃ c, s.Makes c (.combine id now members) ∧
      (s.after (.combine id now members)).get? id = some c := by
  obtain ⟨⟨r, s'⟩, hcombine⟩ := exists_ok_iff.mpr h
  obtain ⟨_, text, description, _, _, hcreate⟩ := exists_create_of_combine hcombine
  obtain ⟨f, -, rfl, rfl⟩ := create_eq_ok_iff.mp hcreate
  have hheld := get?_put_self s ⟨id, Text.trim text, description, none, now, now⟩ f
  refine ⟨_, .combine hcombine hheld, ?_⟩
  rw [after, hcombine]
  exact hheld

/-! ### Another store -/

/-- The check lets the formula pass, since it allows as many tokens as the reader did. -/
theorem loadText_of_isMade (h : c.IsMade limits) (ht : t.limits = limits) (now : Instant) :
    t.loadText now c.toRule.toJson.write = .ok (c.toRule, t.put c.toRule c.formula) := by
  have hfinite : c.formula.toJson.IsWritable := by
    rw [Formula.isWritable_toJson]
    intro d hd
    have hd : d.Sayable := (Formula.fits_of_read h.reads).1 d hd
    exact hd.checked.sayable_iff.mp hd.literal
  have htext : Rule.ofText now c.toRule.toJson.write = .ok c.toRule := by
    refine Rule.ofText_write now ⟨h.dated.created, h.dated.updated⟩ ?_
    rintro f ⟨⟩
    exact hfinite
  have hresolve : c.toRule.resolve t.limits = .ok c.formula := by
    have hcheck : c.formula.check t.limits = .ok () :=
      Formula.check_of_read h.reads (by rw [ht])
    simp only [Rule.resolve, Compiled.toRule, hcheck]
  have hload := load_eq_ok_iff.mpr ⟨c.formula, hresolve, rfl, rfl⟩
  exact bind_eq_ok_iff.mpr ⟨c.toRule, mapError_eq_ok_iff.mpr htext, hload⟩

/-- A rule that was made of a text, or given another one, and is still in force, is written as a
JSON text that any store with the same limits loads, whatever else is in force there. It answers the
same identifier, and the rule that is in force there is the same, with a formula that is equal as
numbers are. -/
theorem made_rules_outlive_store (limits : Limits) (earlier later : List Call) (made : Call)
    (hearlier : ∀ call ∈ earlier, call.IsDated) (hmade : made.IsDated) (c : Compiled)
    (hmakes : (run limits earlier).Makes c made) (id : String)
    (hheld : (run limits (earlier ++ made :: later)).get? id = some c) (t : Store)
    (ht : t.limits = limits) (now : Instant) :
    ∃ r t' d, t.loadText now c.toRule.toJson.write = .ok (r, t') ∧ r.id = id ∧
      t'.get? id = some d ∧ d.toRule = c.toRule ∧ (d.formula == c.formula) = true := by
  have hc : c.IsMade limits := hmakes.isMade (Dated.run limits hearlier) hmade
  obtain rfl : c.rule.id = id := (mem_of_get? hheld).2
  have hsayable : c.formula.Sayable := (Formula.fits_of_read hc.reads).1
  exact ⟨c.toRule, _, _, loadText_of_isMade hc ht now, rfl, get?_put_self t c.toRule c.formula,
    rfl, Formula.beq_self hsayable⟩

/-- A rule that carries a formula of its own, a rule made with a small negative number, and a new
text for it in the middle of a leap second. -/
def mixedCalls : List Call :=
  [.load ⟨"other", "b = 1", "", some (.test ⟨"c", .equal, .text "x"⟩), ⟨0, 0⟩, ⟨0, 0⟩⟩,
    .create "first" ⟨0, 1000000⟩ " a != -0.0000001 " "\\\n",
    .update ⟨1483228799, 1500000000⟩ "first" "a < 0.1 AND b = '٣'" none]

/-- A rule made of both moves to a store where another rule has its identifier. -/
theorem made_rules_outlive_store_of_combined :
    ∃ c r t' d, (run ⟨15, 1⟩ (mixedCalls ++
        [.combine "both" ⟨1735689600, 5⟩ [("first", some .or), ("other", none)]])).get? "both" =
          some c ∧
      (run ⟨15, 1⟩ [.create "both" ⟨0, 0⟩ "z = 1" ""]).loadText ⟨0, 0⟩ c.toRule.toJson.write =
        .ok (r, t') ∧ t'.get? "both" = some d ∧ d.toRule = c.toRule := by
  have hcombines : ((run ⟨15, 1⟩ mixedCalls).combine "both" ⟨1735689600, 5⟩
      [("first", some .or), ("other", none)]).toOption.isSome = true := by
    decide +kernel
  have hcalls : ∀ call ∈ mixedCalls, call.IsDated := by
    simp only [mixedCalls, List.forall_mem_cons, Call.IsDated, List.not_mem_nil,
      IsEmpty.forall_iff, implies_true, and_true]
    exact ⟨⟨by decide, by decide⟩, by decide, by decide⟩
  have hmade : (Call.combine "both" ⟨1735689600, 5⟩
      [("first", some .or), ("other", none)]).IsDated :=
    show Instant.IsKept _ by decide
  obtain ⟨c, hmakes, hheld⟩ := exists_makes_of_combine hcombines
  obtain ⟨r, t', d, hload, -, hget, hsame, -⟩ :=
    made_rules_outlive_store ⟨15, 1⟩ mixedCalls [] _ hcalls hmade c hmakes "both" hheld
      (run ⟨15, 1⟩ [.create "both" ⟨0, 0⟩ "z = 1" ""]) (by decide +kernel) ⟨0, 0⟩
  exact ⟨c, r, t', d, hheld, hload, hget, hsame⟩

end Store

end Criteria
