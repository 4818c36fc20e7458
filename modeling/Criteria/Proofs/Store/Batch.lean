import Criteria.Proofs.Rule.Cache
import Criteria.Proofs.Store.Entries

/-!
Rules loaded together. Whether a rule is accepted hangs on the rule and the limits alone, so a batch
answers its accepted rules and nothing else. Of those with one identifier the last one is in force
afterwards, and where none has an identifier, that identifier is left alone; so rules with different
identifiers may stand in any order.
-/

set_option autoImplicit false
set_option relaxedAutoImplicit false

namespace Criteria

namespace Compiler

variable {k l : Compiler} {r : Rule}

/-- Whether the compiler accepts the rule. -/
def accepts (k : Compiler) (r : Rule) : Bool :=
  (k.compile r).toOption.isSome

theorem accepts_eq_true_iff : k.accepts r = true ↔ ∃ f, r.resolve k.limits = .ok f := by
  rw [accepts, compile_eq_map]
  cases r.resolve k.limits <;> simp [Except.map, Except.toOption]

theorem accepts_eq_false_iff :
    k.accepts r = false ↔ ∃ fault, r.resolve k.limits = .error fault := by
  rw [accepts, compile_eq_map]
  cases r.resolve k.limits <;> simp [Except.map, Except.toOption]

/-- How many rules were accepted before makes no difference. -/
theorem accepts_congr (h : k.limits = l.limits) (r : Rule) : k.accepts r = l.accepts r := by
  rw [Bool.eq_iff_iff, accepts_eq_true_iff, accepts_eq_true_iff, h]

end Compiler

/-- What is in force, without the number that the compiler gave it. -/
def Compiled.unversioned (c : Compiled) : Compiled :=
  { c with version := 0 }

namespace Store

variable {s : Store} {r : Rule} {f : Formula} {rules : List Rule} {id : String}

theorem accepts_put (s : Store) (r : Rule) (f : Formula) :
    (s.put r f).compiler.accepts = s.compiler.accepts :=
  funext (Compiler.accepts_congr rfl)

theorem loadAll_fst (s : Store) (rules : List Rule) :
    (s.loadAll rules).1 = (rules.filter s.compiler.accepts).map Rule.id := by
  refine loadAll_induction (motive := fun s rules result ↦
    result.1 = (rules.filter s.compiler.accepts).map Rule.id) ?_ ?_ ?_ s rules
  · intro s
    rfl
  · intro s r fault rules hresolve ih
    have haccepts := Compiler.accepts_eq_false_iff.mpr ⟨fault, hresolve⟩
    rw [List.filter_cons_of_neg (by simp [haccepts]), ih]
  · intro s r f rules hresolve ih
    have haccepts := Compiler.accepts_eq_true_iff.mpr ⟨f, hresolve⟩
    rw [List.filter_cons_of_pos haccepts, List.map_cons, ih, accepts_put]

/-- Each accepted rule is counted, and no other one. -/
theorem compiler_loadAll (s : Store) (rules : List Rule) :
    (s.loadAll rules).2.compiler =
      ⟨s.limits, s.compiler.version + rules.countP s.compiler.accepts⟩ := by
  refine loadAll_induction (motive := fun s rules result ↦ result.2.compiler =
    ⟨s.limits, s.compiler.version + rules.countP s.compiler.accepts⟩) ?_ ?_ ?_ s rules
  · intro s
    rfl
  · intro s r fault rules hresolve ih
    have haccepts := Compiler.accepts_eq_false_iff.mpr ⟨fault, hresolve⟩
    rw [List.countP_cons_of_neg (by simp [haccepts]), ih]
  · intro s r f rules hresolve ih
    have haccepts := Compiler.accepts_eq_true_iff.mpr ⟨f, hresolve⟩
    rw [List.countP_cons_of_pos haccepts, ih, accepts_put]
    simp only [put, limits, Compiler.mk.injEq, true_and]
    omega

/-- A batch leaves alone the identifiers that none of its accepted rules has. -/
theorem get?_loadAll_of_ne (h : ∀ q ∈ rules, s.compiler.accepts q = true → q.id ≠ id) :
    (s.loadAll rules).2.get? id = s.get? id := by
  refine loadAll_induction (motive := fun s rules result ↦
    (∀ q ∈ rules, s.compiler.accepts q = true → q.id ≠ id) → result.2.get? id = s.get? id)
      ?_ ?_ ?_ s rules h
  · intro s _
    rfl
  · intro s r fault rules _ ih h
    exact ih (List.forall_mem_cons.mp h).2
  · intro s r f rules hresolve ih h
    obtain ⟨hfirst, hrest⟩ := List.forall_mem_cons.mp h
    have haccepts := Compiler.accepts_eq_true_iff.mpr ⟨f, hresolve⟩
    rw [← accepts_put s r f] at hrest
    rw [ih hrest, get?_put, if_neg (hfirst haccepts)]

/-- A batch takes no rule out of force, and puts in force what it answers. -/
theorem contains_loadAll (s : Store) (rules : List Rule) (id : String) :
    (s.loadAll rules).2.contains id = true ↔
      s.contains id = true ∨ id ∈ (s.loadAll rules).1 := by
  refine loadAll_induction (motive := fun s _ result ↦
    result.2.contains id = true ↔ s.contains id = true ∨ id ∈ result.1) ?_ ?_ ?_ s rules
  · intro s
    simp
  · intro s r fault rules _ ih
    exact ih
  · intro s r f rules _ ih
    have hput : (s.put r f).contains id = true ↔ s.contains id = true ∨ id = r.id := by
      rw [contains, get?_put]
      by_cases hid : r.id = id
      · simp [hid]
      · have hne : id ≠ r.id := Ne.symm hid
        simp [hid, hne, contains]
    rw [ih, hput, List.mem_cons, or_assoc]

theorem loadAll_append (s : Store) (rules more : List Rule) :
    (s.loadAll (rules ++ more)).2 = ((s.loadAll rules).2.loadAll more).2 := by
  refine loadAll_induction (motive := fun s rules result ↦
    (s.loadAll (rules ++ more)).2 = (result.2.loadAll more).2) ?_ ?_ ?_ s rules
  · intro s
    rfl
  · intro s r fault rules hresolve ih
    rw [List.cons_append, loadAll_cons_of_resolve_error hresolve, ih]
  · intro s r f rules hresolve ih
    rw [List.cons_append, loadAll_cons_of_resolve hresolve, ih]

/-- The last accepted rule with an identifier is in force, with the number that follows those of the
accepted rules before it. -/
theorem get?_loadAll_of_last {before after : List Rule} (hresolve : r.resolve s.limits = .ok f)
    (hlast : ∀ q ∈ after, s.compiler.accepts q = true → q.id ≠ r.id) :
    (s.loadAll (before ++ r :: after)).2.get? r.id =
      some ⟨r.uncached, f, s.compiler.version + before.countP s.compiler.accepts + 1⟩ := by
  have hcompiler := compiler_loadAll s before
  have hlimits : (s.loadAll before).2.compiler.limits = s.compiler.limits := by
    rw [hcompiler]
    rfl
  have hresolve' : r.resolve (s.loadAll before).2.limits = .ok f := by
    rw [limits, hlimits]
    exact hresolve
  rw [loadAll_append, loadAll_cons_of_resolve hresolve', get?_loadAll_of_ne, get?_put_self,
    hcompiler]
  · rfl
  · rw [accepts_put, funext (Compiler.accepts_congr hlimits)]
    exact hlast

/-- Of a rule whose identifier no other rule of the batch has, only the number depends on where it
stands. -/
theorem unversioned_of_mem (hnodup : (rules.map Rule.id).Nodup) (hr : r ∈ rules)
    (hresolve : r.resolve s.limits = .ok f) :
    ((s.loadAll rules).2.get? r.id).map Compiled.unversioned = some ⟨r.uncached, f, 0⟩ := by
  obtain ⟨before, after, rfl⟩ := List.append_of_mem hr
  have hlast : ∀ q ∈ after, q.id ≠ r.id := by
    rw [List.map_append, List.map_cons] at hnodup
    have hrest := (List.nodup_cons.mp hnodup.of_append_right).1
    exact fun q hq heq ↦ hrest (heq ▸ List.mem_map_of_mem hq)
  rw [get?_loadAll_of_last hresolve fun q hq _ ↦ hlast q hq]
  rfl

/-- A batch answers the identifiers of the rules that are accepted, in order and as often as they
occur; whether one is accepted hangs on the limits alone. Afterwards the last accepted rule with an
identifier is in force under it, as the compiler makes it after the accepted rules before it. An
identifier that no accepted rule has keeps what it had. Rules with different identifiers leave the
same behind in any order, apart from their numbers. -/
theorem batch_is_its_accepted_rules (s : Store) (rules : List Rule) :
    (s.loadAll rules).1 = (rules.filter s.compiler.accepts).map Rule.id ∧
    (∀ k : Compiler, k.limits = s.limits → ∀ r, k.accepts r = s.compiler.accepts r) ∧
    (∀ before r after, rules = before ++ r :: after → s.compiler.accepts r = true →
      (∀ q ∈ after, s.compiler.accepts q = true → q.id ≠ r.id) →
        ∃ c k, Compiler.compile
            ⟨s.limits, s.compiler.version + before.countP s.compiler.accepts⟩ r = .ok (c, k) ∧
          (s.loadAll rules).2.get? r.id = some c) ∧
    (∀ id, (∀ q ∈ rules, s.compiler.accepts q = true → q.id ≠ id) →
      (s.loadAll rules).2.get? id = s.get? id) ∧
    (∀ id, (s.loadAll rules).2.contains id = true ↔
      s.contains id = true ∨ id ∈ (s.loadAll rules).1) ∧
    ((rules.map Rule.id).Nodup → ∀ rules' : List Rule, rules'.Perm rules → ∀ id,
      ((s.loadAll rules').2.get? id).map Compiled.unversioned =
        ((s.loadAll rules).2.get? id).map Compiled.unversioned) := by
  refine ⟨loadAll_fst s rules, fun k ↦ Compiler.accepts_congr, ?_, fun id ↦ get?_loadAll_of_ne,
    contains_loadAll s rules, fun hnodup rules' hperm id ↦ ?_⟩
  · rintro before r after rfl haccepts hlast
    obtain ⟨f, hresolve⟩ := Compiler.accepts_eq_true_iff.mp haccepts
    have hcompile := Compiler.compile_of_resolve
      (k := ⟨s.limits, s.compiler.version + before.countP s.compiler.accepts⟩) hresolve
    exact ⟨_, _, hcompile, get?_loadAll_of_last hresolve hlast⟩
  · by_cases hid : ∃ r ∈ rules, s.compiler.accepts r = true ∧ r.id = id
    · obtain ⟨r, hr, haccepts, rfl⟩ := hid
      obtain ⟨f, hresolve⟩ := Compiler.accepts_eq_true_iff.mp haccepts
      have hnodup' : (rules'.map Rule.id).Nodup := (hperm.map Rule.id).nodup_iff.mpr hnodup
      rw [unversioned_of_mem hnodup hr hresolve,
        unversioned_of_mem hnodup' (hperm.mem_iff.mpr hr) hresolve]
    · have hne : ∀ q ∈ rules, s.compiler.accepts q = true → q.id ≠ id :=
        fun q hq haccepts heq ↦ hid ⟨q, hq, haccepts, heq⟩
      rw [get?_loadAll_of_ne hne, get?_loadAll_of_ne fun q hq ↦ hne q (hperm.mem_iff.mp hq)]

/-- A refused rule does not disturb the accepted one with its identifier, before or after it. -/
example :
    ((ofLimits .standard).loadAll [⟨"a", "x = 'y'", "", none, ⟨0, 0⟩, ⟨0, 0⟩⟩,
      ⟨"b", "x =", "", none, ⟨0, 0⟩, ⟨0, 0⟩⟩, ⟨"b", "x = 'z'", "", none, ⟨0, 0⟩, ⟨0, 0⟩⟩,
      ⟨"a", "= 'y'", "", none, ⟨0, 0⟩, ⟨0, 0⟩⟩]).1 = ["a", "b"] := by
  decide +kernel

end Store

end Criteria
