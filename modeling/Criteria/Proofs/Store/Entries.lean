import Criteria.Proofs.Steps
import Criteria.Request
import Criteria.Store
import Mathlib

/-!
What each call does to the entries of a store. All of them that add a rule do so by one step, `put`,
which takes the place of an entry with the same identifier.
-/

set_option autoImplicit false
set_option relaxedAutoImplicit false

namespace Criteria

namespace Store

variable {s s' : Store} {r r' : Rule} {c : Compiled} {id : String}

/-- The store after a rule was accepted that decides by the formula. -/
def put (s : Store) (r : Rule) (f : Formula) : Store :=
  ⟨⟨s.limits, s.compiler.version + 1⟩,
    ⟨{ r with formula := none }, f, s.compiler.version + 1⟩ :: (s.erase r.id).entries⟩

/-! ### Look-up -/

theorem mem_of_get? (h : s.get? id = some c) : c ∈ s.entries ∧ c.id = id := by
  unfold get? at h
  have hid := List.find?_some h
  exact ⟨List.mem_of_find?_eq_some h, by simpa using hid⟩

theorem get?_put_self (s : Store) (r : Rule) (f : Formula) :
    (s.put r f).get? r.id =
      some ⟨{ r with formula := none }, f, s.compiler.version + 1⟩ := by
  simp [get?, put, Compiled.id]

theorem get?_erase (s : Store) (id j : String) :
    (s.erase j).get? id = if j = id then none else s.get? id := by
  unfold get? erase
  rw [List.find?_filter]
  by_cases hid : j = id
  · rw [if_pos hid, List.find?_eq_none]
    simp [hid]
  · rw [if_neg hid]
    congr 1
    funext c
    by_cases hc : c.id = id <;> simp [hc, Ne.symm hid]

theorem get?_put (s : Store) (r : Rule) (f : Formula) (id : String) :
    (s.put r f).get? id =
      if r.id = id then some ⟨{ r with formula := none }, f, s.compiler.version + 1⟩
      else s.get? id := by
  by_cases hid : r.id = id
  · subst hid
    rw [get?_put_self, if_pos rfl]
  · have hrest : (s.put r f).get? id = (s.erase r.id).get? id :=
      List.find?_cons_of_neg (by simpa [Compiled.id] using hid)
    rw [hrest, get?_erase, if_neg hid, if_neg hid]

/-! ### One entry to an identifier -/

theorem nodup_erase (h : (s.entries.map Compiled.id).Nodup) (id : String) :
    ((s.erase id).entries.map Compiled.id).Nodup :=
  h.sublist (List.filter_sublist.map Compiled.id)

theorem nodup_put (h : (s.entries.map Compiled.id).Nodup) (r : Rule) (f : Formula) :
    ((s.put r f).entries.map Compiled.id).Nodup := by
  -- The entry that had the identifier is gone.
  have hnew : r.id ∉ (s.erase r.id).entries.map Compiled.id := by
    simp [erase]
  exact List.nodup_cons.mpr ⟨hnew, nodup_erase h r.id⟩

/-- An entry is found by its identifier, if no other entry has the same. -/
theorem get?_of_mem (h : (s.entries.map Compiled.id).Nodup) (hc : c ∈ s.entries) :
    s.get? c.id = some c := by
  unfold get?
  generalize s.entries = entries at h hc
  induction entries with
  | nil => exact absurd hc List.not_mem_nil
  | cons d entries ih =>
    rw [List.map_cons, List.nodup_cons] at h
    rcases List.mem_cons.mp hc with rfl | hc
    · simp
    · have hne : d.id ≠ c.id := fun heq ↦ h.1 (heq ▸ List.mem_map_of_mem hc)
      rw [List.find?_cons_of_neg (by simpa using hne)]
      exact ih h.2 hc

theorem find_eq_ok_iff : s.find id = .ok c ↔ s.get? id = some c := by
  unfold find
  cases s.get? id <;> simp

theorem find_of_get?_none (h : s.get? id = none) : s.find id = .error (.unknownRule id) := by
  rw [find, h]

theorem contains_eq_true_iff : s.contains id = true ↔ ∃ c, s.get? id = some c :=
  Option.isSome_iff_exists

theorem contains_eq_false_iff : s.contains id = false ↔ s.get? id = none := by
  simp [contains]

/-! ### The calls -/

theorem load_eq_ok_iff :
    s.load r = .ok (r', s') ↔ ∃ f, r.resolve s.limits = .ok f ∧
      { r with formula := some f } = r' ∧ s.put r f = s' := by
  have hload : s.load r = (r.resolve s.limits).map fun f ↦
      ({ r with formula := some f }, s.put r f) := by
    unfold load Compiler.compile
    rw [show s.limits = s.compiler.limits from rfl]
    cases r.resolve s.compiler.limits <;> rfl
  rw [hload]
  cases r.resolve s.limits <;> simp [Except.map]

theorem load_of_resolve_error {fault : Fault} (h : r.resolve s.limits = .error fault) :
    s.load r = .error fault := by
  unfold load Compiler.compile
  rw [show s.compiler.limits = s.limits from rfl, h]
  rfl

theorem loadAll_cons_of_resolve_error {fault : Fault} (h : r.resolve s.limits = .error fault)
    (rules : List Rule) : s.loadAll (r :: rules) = s.loadAll rules := by
  rw [loadAll, load_of_resolve_error h]

theorem loadAll_cons_of_resolve {f : Formula} (h : r.resolve s.limits = .ok f)
    (rules : List Rule) :
    s.loadAll (r :: rules) =
      (r.id :: ((s.put r f).loadAll rules).1, ((s.put r f).loadAll rules).2) := by
  rw [loadAll, load_eq_ok_iff.mpr ⟨f, h, rfl, rfl⟩]

/-- A batch is loaded rule by rule: those that are refused are passed over, and each other one is
put in force before the rest is loaded. -/
theorem loadAll_induction {motive : Store → List Rule → List String × Store → Prop}
    (nil : ∀ s, motive s [] ([], s))
    (refused : ∀ s r fault rules, r.resolve s.limits = .error fault →
      motive s rules (s.loadAll rules) → motive s (r :: rules) (s.loadAll rules))
    (accepted : ∀ s r f rules, r.resolve s.limits = .ok f →
      motive (s.put r f) rules ((s.put r f).loadAll rules) →
        motive s (r :: rules)
          (r.id :: ((s.put r f).loadAll rules).1, ((s.put r f).loadAll rules).2))
    (s : Store) (rules : List Rule) : motive s rules (s.loadAll rules) := by
  induction rules generalizing s with
  | nil => exact nil s
  | cons r rules ih =>
    cases hresolve : r.resolve s.limits with
    | error fault =>
      rw [loadAll_cons_of_resolve_error hresolve]
      exact refused s r fault rules hresolve (ih s)
    | ok f =>
      rw [loadAll_cons_of_resolve hresolve]
      exact accepted s r f rules hresolve (ih (s.put r f))

theorem create_eq_ok_iff {now : Instant} {text description : String} :
    s.create id now text description = .ok (r', s') ↔
      ∃ f, Formula.read s.limits (Text.trim text) = .ok f ∧
        ⟨id, Text.trim text, description, some f, now, now⟩ = r' ∧
          s.put ⟨id, Text.trim text, description, none, now, now⟩ f = s' := by
  rw [create, load_eq_ok_iff]
  rfl

theorem create_of_read_error {text : String} {fault : Fault}
    (h : Formula.read s.limits (Text.trim text) = .error fault) (id : String) (now : Instant)
    (description : String) : s.create id now text description = .error fault :=
  load_of_resolve_error h

/-- The rule that an update makes of the one in force. -/
def updated (c : Compiled) (now : Instant) (text : String) (description : Option String) : Rule :=
  { c.rule with
    text := Text.trim text
    description := description.getD c.rule.description
    formula := none
    updatedAt := now }

theorem update_eq_ok_iff {now : Instant} {text : String} {description : Option String} :
    s.update now id text description = .ok (r', s') ↔ ∃ c, s.get? id = some c ∧
      ∃ f, Formula.read s.limits (Text.trim text) = .ok f ∧
        { updated c now text description with formula := some f } = r' ∧
          s.put (updated c now text description) f = s' := by
  rw [update, bind_eq_ok_iff]
  simp only [find_eq_ok_iff]
  refine exists_congr fun c ↦ and_congr_right fun _ ↦ ?_
  exact load_eq_ok_iff

theorem update_of_read_error {text : String} {fault : Fault} (hc : s.get? id = some c)
    (h : Formula.read s.limits (Text.trim text) = .error fault) (now : Instant)
    (description : Option String) : s.update now id text description = .error fault := by
  rw [update, find_eq_ok_iff.mpr hc]
  exact load_of_resolve_error h

theorem delete_eq_ok_iff :
    s.delete id = .ok (r', s') ↔ ∃ c, s.get? id = some c ∧ c.toRule = r' ∧ s.erase id = s' := by
  rw [delete, bind_eq_ok_iff]
  simp only [find_eq_ok_iff]
  refine exists_congr fun c ↦ and_congr_right fun _ ↦ ?_
  simp [Pure.pure, Except.pure]

/-! ### Rules that are not in force -/

/-- The first member whose rule is not in force. -/
def firstAbsent (s : Store) (members : List Member) : Option String :=
  (members.map Prod.fst).find? fun id ↦ !s.contains id

theorem exists_firstAbsent {members : List Member} (hid : id ∈ members.map Prod.fst)
    (habsent : s.get? id = none) : ∃ j, s.firstAbsent members = some j := by
  rw [← Option.isSome_iff_exists, firstAbsent, List.find?_isSome]
  exact ⟨id, hid, by simp [contains_eq_false_iff.mpr habsent]⟩

theorem update_of_absent (h : s.get? id = none) (now : Instant) (text : String)
    (description : Option String) :
    s.update now id text description = .error (.unknownRule id) := by
  rw [update, find_of_get?_none h]
  rfl

theorem delete_of_absent (h : s.get? id = none) : s.delete id = .error (.unknownRule id) := by
  rw [delete, find_of_get?_none h]
  rfl

theorem parts_cons (s : Store) (member : Member) (members : List Member) :
    s.parts (member :: members) = (s.find member.1).bind fun c ↦
      (s.parts members).map fun parts ↦ ⟨c.rule.text, member.2⟩ :: parts := by
  unfold parts
  simp only [List.mapM_cons]
  cases s.find member.1 with
  | error fault => rfl
  | ok c => cases (members.mapM _ : Except Fault (List Part)) <;> rfl

/-- The members are looked up one after another, so the first that is not in force is named. -/
theorem parts_of_firstAbsent {members : List Member} (h : s.firstAbsent members = some id) :
    s.parts members = .error (.unknownRule id) := by
  induction members with
  | nil => simp [firstAbsent] at h
  | cons member members ih =>
    rw [firstAbsent, List.map_cons] at h
    cases hfound : s.get? member.1 with
    | none =>
      rw [List.find?_cons_of_pos (by simp [contains_eq_false_iff.mpr hfound])] at h
      obtain rfl : member.1 = id := Option.some.inj h
      rw [parts_cons, find_of_get?_none hfound]
      rfl
    | some c =>
      rw [List.find?_cons_of_neg (by simp [contains_eq_true_iff.mpr ⟨c, hfound⟩])] at h
      rw [parts_cons, find_eq_ok_iff.mpr hfound, ih h]
      rfl

/-- If no member is absent, the texts of all of them are found. -/
theorem exists_parts {members : List Member} (h : s.firstAbsent members = none) :
    ∃ parts, s.parts members = .ok parts ∧ List.Forall₂ (fun member p ↦
      ∃ c, s.get? member.1 = some c ∧ p = (⟨c.rule.text, member.2⟩ : Part)) members parts := by
  induction members with
  | nil => exact ⟨[], rfl, .nil⟩
  | cons member members ih =>
    rw [firstAbsent, List.map_cons, List.find?_eq_none, List.forall_mem_cons] at h
    obtain ⟨c, hfound⟩ := contains_eq_true_iff.mp (by simpa using h.1)
    obtain ⟨rest, hrest, hparts⟩ := ih (List.find?_eq_none.mpr h.2)
    refine ⟨⟨c.rule.text, member.2⟩ :: rest, ?_, .cons ⟨c, hfound, rfl⟩ hparts⟩
    rw [parts_cons, find_eq_ok_iff.mpr hfound, hrest]
    rfl

theorem combine_of_firstAbsent {members : List Member} (h : s.firstAbsent members = some id)
    (fresh : String) (now : Instant) :
    s.combine fresh now members = .error (.unknownRule id) := by
  rw [combine, parts_of_firstAbsent h]
  rfl

/-- What combining puts in force is created from the joined text. -/
theorem exists_create_of_combine {now : Instant} {members : List (String × Option Connective)}
    (h : s.combine id now members = .ok (r', s')) :
    ∃ parts text description, s.parts members = .ok parts ∧
      Part.combine s.limits parts = .ok text ∧
        s.create id now text description = .ok (r', s') := by
  rw [combine, bind_eq_ok_iff] at h
  obtain ⟨parts, hparts, h⟩ := h
  obtain ⟨text, htext, h⟩ := bind_eq_ok_iff.mp h
  exact ⟨parts, text, _, hparts, htext, h⟩

end Store

end Criteria
