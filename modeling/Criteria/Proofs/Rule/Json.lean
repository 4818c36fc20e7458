import Criteria.Proofs.Formula.Json
import Criteria.Proofs.Instant.ReadBack
import Criteria.Proofs.Steps
import Criteria.Rule

/-!
Rules written as JSON read back, with the formula that they carry and their two moments. Whatever
rule a text holds, dates are kept for its moments.
-/

set_option autoImplicit false
set_option relaxedAutoImplicit false

namespace Criteria

/-! ### Written rules -/

theorem Instant.ofDraft_write {t : Instant} (h : t.IsKept) :
    ofDraft (.leaf (some (.text t.write))) = .ok t := by
  simp only [ofDraft, Json.Draft.asTextOr, Bind.bind, Except.bind, read_write h]

/-- The formula that a rule carries is there, be it in a member that may be null. -/
theorem Formula.asOptional_toDraft (f : Formula) :
    Json.Draft.asOptional ofDraft f.toJson.toDraft = .ok (some f) := by
  have hread := ofDraft_toDraft f
  cases f with
  | test c => exact congrArg (Except.map some) hread
  | join connective left right => exact congrArg (Except.map some) hread

namespace Rule

/-- Whether dates are kept for both moments of the rule. -/
structure IsDated (r : Rule) : Prop where
  created : r.createdAt.IsKept
  updated : r.updatedAt.IsKept

/-- A rule is written by what it holds, if the numbers of its formula are finite. -/
theorem isWritable_toJson {r : Rule} (h : ∀ f ∈ r.formula, f.toJson.IsWritable) :
    r.toJson.IsWritable := by
  obtain ⟨id, text, description, formula, createdAt, updatedAt⟩ := r
  cases formula with
  | none => exact ⟨trivial, trivial, trivial, trivial, trivial, trivial⟩
  | some f => exact ⟨trivial, trivial, trivial, h f rfl, trivial, trivial, trivial⟩

/-- Each member finds its place empty, and a rule without a formula leaves that place so. -/
theorem ofDraft_toDraft (now : Instant) {r : Rule} (h : r.IsDated) :
    ofDraft now r.toJson.toDraft = .ok r := by
  obtain ⟨id, text, description, formula, createdAt, updatedAt⟩ := r
  have hcreated := Instant.ofDraft_write h.created
  have hupdated := Instant.ofDraft_write h.updated
  cases formula <;>
    simp [toJson, Json.toDraft, Json.memberDrafts, ofDraft, Members.empty, Members.addNamed,
      Members.add, Members.finish, Members.complete, Json.fill, Json.require, Json.wellFormed,
      Json.Draft.asText, Json.Draft.asTextOr, Formula.asOptional_toDraft, hcreated, hupdated,
      Bind.bind, Except.bind, Pure.pure, Except.pure, Except.map]

/-- A rule is read back from its text, whenever it is read. -/
theorem ofText_write (now : Instant) {r : Rule} (h : r.IsDated)
    (hformula : ∀ f ∈ r.formula, f.toJson.IsWritable) : ofText now r.toJson.write = .ok r := by
  rw [ofText, Json.decodeText, Json.readDraft_write (isWritable_toJson hformula)]
  change (do
    let r ← ofDraft now r.toJson.toDraft
    Json.wellFormed true
    return r) = _
  rw [ofDraft_toDraft now h]
  rfl

/-! ### Rules of texts -/

/-- What is read of a rule has moments for which dates are kept. -/
structure Members.IsDated (m : Members) : Prop where
  created : ∀ t ∈ m.createdAt, t.IsKept
  updated : ∀ t ∈ m.updatedAt, t.IsKept

theorem isKept_of_ofDraft {d : Json.Draft} {t : Instant} (h : Instant.ofDraft d = .ok t) :
    t.IsKept := by
  obtain ⟨s, -, h⟩ := bind_eq_ok_iff.mp h
  split at h
  · rename_i t' hread
    cases h
    exact Instant.isKept_of_read hread
  · cases h

/-- A place that was filled holds what its member was decoded to. -/
theorem exists_of_fill {α β : Type} {member : String} {decode : β → Except Mismatch α}
    {place filled : Option α} {v : β} (h : Json.fill member decode place v = .ok filled) :
    ∃ a, decode v = .ok a ∧ filled = some a := by
  unfold Json.fill at h
  split at h
  · cases h
  · cases hdecode : decode v with
    | error mismatch =>
      rw [hdecode] at h
      cases h
    | ok a =>
      rw [hdecode] at h
      cases h
      exact ⟨a, rfl, rfl⟩

theorem isKept_of_fill {member : String} {place filled : Option Instant} {d : Json.Draft}
    (h : Json.fill member Instant.ofDraft place d = .ok filled) : ∀ t ∈ filled, t.IsKept := by
  obtain ⟨t, hread, rfl⟩ := exists_of_fill h
  rintro t' ⟨⟩
  exact isKept_of_ofDraft hread

namespace Members

variable {m m' : Members}

theorem isDated_empty : empty.IsDated :=
  ⟨by simp [empty], by simp [empty]⟩

theorem IsDated.add (hm : m.IsDated) {name : String} {d : Json.Draft}
    (h : m.add name d = .ok m') : m'.IsDated := by
  unfold Members.add at h
  split at h
  case h_5 =>
    obtain ⟨filled, hfill, h⟩ := bind_eq_ok_iff.mp h
    cases h
    exact ⟨isKept_of_fill hfill, hm.updated⟩
  case h_6 =>
    obtain ⟨filled, hfill, h⟩ := bind_eq_ok_iff.mp h
    cases h
    exact ⟨hm.created, isKept_of_fill hfill⟩
  all_goals
    obtain ⟨filled, -, h⟩ := bind_eq_ok_iff.mp h
    cases h
    exact ⟨hm.created, hm.updated⟩

theorem IsDated.addNamed (hm : m.IsDated) {member : Option String × Json.Draft}
    (h : m.addNamed member = .ok m') : m'.IsDated := by
  obtain ⟨_ | name, d⟩ := member
  · cases h
  · exact hm.add h

/-- A moment that was left out is the moment of reading. -/
theorem IsDated.complete (hm : m.IsDated) {now : Instant} (hnow : now.IsKept)
    (id text : String) : (m.complete now id text).IsDated := by
  have hgetD {place : Option Instant} (hplace : ∀ t ∈ place, t.IsKept) :
      (place.getD now).IsKept := by
    cases place with
    | none => exact hnow
    | some t => exact hplace t rfl
  exact ⟨hgetD hm.created, hgetD hm.updated⟩

theorem IsDated.finish (hm : m.IsDated) {now : Instant} (hnow : now.IsKept) {r : Rule}
    (h : m.finish now = .ok r) : r.IsDated := by
  obtain ⟨id, -, h⟩ := bind_eq_ok_iff.mp h
  obtain ⟨text, -, h⟩ := bind_eq_ok_iff.mp h
  cases h
  exact hm.complete hnow id text

end Members

variable {now : Instant} {r : Rule}

theorem isDated_of_ofItems {items : List Json.Draft} {closed : Bool} (hnow : now.IsKept)
    (h : ofItems now items closed = .ok r) : r.IsDated := by
  obtain ⟨m, hfold, h⟩ := bind_eq_ok_iff.mp h
  have hm : m.IsDated :=
    foldlM_induction (fun _ _ _ hm hadd ↦ hm.add hadd) Members.isDated_empty hfold
  obtain ⟨_, -, h⟩ := bind_eq_ok_iff.mp h
  split at h
  · obtain ⟨_, -, h⟩ := bind_eq_ok_iff.mp h
    cases h
    exact hm.complete hnow _ _
  · cases h

theorem isDated_of_ofDraft {d : Json.Draft} (hnow : now.IsKept) (h : ofDraft now d = .ok r) :
    r.IsDated := by
  cases d with
  | object members closed =>
    obtain ⟨m, hfold, h⟩ := bind_eq_ok_iff.mp h
    have hm : m.IsDated :=
      foldlM_induction (fun _ _ _ hm hadd ↦ hm.addNamed hadd) Members.isDated_empty hfold
    obtain ⟨_, -, h⟩ := bind_eq_ok_iff.mp h
    exact hm.finish hnow h
  | array items closed => exact isDated_of_ofItems hnow h
  | broken => cases h
  | leaf v => cases h

/-- Dates are kept for the moments of every rule that a text holds. -/
theorem isDated_of_ofText {s : String} (hnow : now.IsKept) (h : ofText now s = .ok r) :
    r.IsDated := by
  obtain ⟨r', hdraft, h⟩ := bind_eq_ok_iff.mp h
  obtain ⟨_, -, h⟩ := bind_eq_ok_iff.mp h
  cases h
  exact isDated_of_ofDraft hnow hdraft

end Rule

end Criteria
