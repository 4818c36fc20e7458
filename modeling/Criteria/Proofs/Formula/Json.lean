import Criteria.Formula.Json
import Criteria.Proofs.Formula.Check
import Criteria.Proofs.Json.Write

/-!
Formulas written as JSON read back, nested to any depth. The tag comes first and is found again, and
what stands beside it has the parts in the order in which they are taken.
-/

set_option autoImplicit false
set_option relaxedAutoImplicit false

namespace Criteria

theorem Literal.ofJson_toJson (l : Literal) : ofJson l.toJson = .ok l := by
  cases l <;> rfl

theorem Comparison.ofJson_symbol (op : Comparison) : ofJson (.text op.symbol) = .ok op := by
  cases op <;> rfl

theorem Connective.ofJson_symbol (op : Connective) : ofJson (.text op.symbol) = .ok op := by
  cases op <;> rfl

namespace Json

/-! ### Tagged objects -/

variable {α : Type} {tag : String} {known : List (String × α)}

theorem asJson_toDraft (v : Json) : v.toDraft.asJson = .ok v := by
  rw [Draft.asJson, whole?_toDraft]

theorem addTagged_toDraft {name : String} (h : name ≠ tag)
    (m : Option α × List (String × Json)) (v : Json) :
    Draft.addTagged tag known m (some name, v.toDraft) = .ok (m.1, (name, v) :: m.2) := by
  simp only [Draft.addTagged, if_neg h, asJson_toDraft]
  rfl

/-- Members that are no tag are kept for later. -/
theorem foldlM_addTagged {members : List (String × Json)} (h : ∀ m ∈ members, m.1 ≠ tag)
    (place : Option α) (done : List (String × Json)) :
    (memberDrafts members).foldlM (Draft.addTagged tag known) (place, done) =
      .ok (place, members.reverse ++ done) := by
  induction members generalizing done with
  | nil => rfl
  | cons m members ih =>
    obtain ⟨name, v⟩ := m
    rw [List.forall_mem_cons] at h
    rw [memberDrafts, List.foldlM_cons, addTagged_toDraft h.1, List.reverse_cons, List.append_assoc]
    exact ih h.2 ((name, v) :: done)

/-- The tag in front names the variant, and the other members stand beside it. -/
theorem tagged_toDraft {members : List (String × Json)} {name wanted : String}
    (h : ∀ m ∈ members, m.1 ≠ tag) :
    Draft.tagged tag wanted known (toDraft (.object ((tag, .text name) :: members))) =
      (variantNamed known name).map fun a ↦ (a, .members members) := by
  have hfirst : Draft.addTagged tag known (none, []) (some tag, toDraft (.text name)) =
      (variantNamed known name).map fun a ↦ (some a, []) := by
    simp only [Draft.addTagged, if_pos]
    change (do return (← (variantNamed known name).map some, [])) = _
    cases variantNamed known name <;> rfl
  rw [toDraft, memberDrafts, Draft.tagged, List.foldlM_cons, hfirst]
  cases variantNamed known name with
  | error mismatch => rfl
  | ok a =>
    have hrest : (memberDrafts members).foldlM (Draft.addTagged tag known) (some a, []) =
        .ok (some a, members.reverse ++ []) := foldlM_addTagged h (some a) []
    simp only [Except.map, Bind.bind, Except.bind, hrest, wellFormed, require, Pure.pure,
      Except.pure, List.append_nil, List.reverse_reverse, if_pos]

end Json

namespace Formula

/-! ### Parts -/

theorem testOfMembers_parts (field : String) (comparison : Comparison) (v : Json) :
    testOfMembers [("field", .text field), ("operator", .text comparison.symbol), ("value", v)] =
      (Literal.ofJson v).map fun literal ↦ .test ⟨field, comparison, literal⟩ := by
  cases hliteral : Literal.ofJson v <;>
    simp [testOfMembers, TestMembers.add, TestMembers.finish, Json.fill, Json.require, Json.asText,
      Comparison.ofJson_symbol, hliteral, Except.map, Bind.bind, Except.bind, Pure.pure,
      Except.pure]

/-- The left operand is read before the right one. -/
theorem joinOfMembers_parts (connective : Connective) (v w : Json) :
    joinOfMembers .empty [("operator", .text connective.symbol), ("left", v), ("right", w)] =
      (ofJson v).bind fun left ↦ (ofJson w).map fun right ↦ .join connective left right := by
  cases hleft : ofJson v <;> cases hright : ofJson w <;>
    simp [joinOfMembers, JoinMembers.empty, JoinMembers.finish, Json.fill, Json.require,
      Connective.ofJson_symbol, hleft, hright, Except.map, Bind.bind, Except.bind, Pure.pure,
      Except.pure]

/-! ### Values -/

/-- A condition with any value. -/
theorem ofJson_test (field : String) (comparison : Comparison) (v : Json) :
    ofJson (.object [("type", .text "comparison"), ("field", .text field),
      ("operator", .text comparison.symbol), ("value", v)]) =
        (Literal.ofJson v).map fun literal ↦ .test ⟨field, comparison, literal⟩ :=
  testOfMembers_parts field comparison v

/-- A join with any operands. -/
theorem ofJson_join (connective : Connective) (v w : Json) :
    ofJson (.object [("type", .text "logical"), ("operator", .text connective.symbol),
      ("left", v), ("right", w)]) =
        (ofJson v).bind fun left ↦ (ofJson w).map fun right ↦ .join connective left right :=
  joinOfMembers_parts connective v w

theorem ofJson_toJson (f : Formula) : ofJson f.toJson = .ok f := by
  induction f with
  | test c =>
    rw [toJson, ofJson_test, Literal.ofJson_toJson]
    rfl
  | join connective left right ihleft ihright =>
    rw [toJson, ofJson_join, ihleft, ihright]
    rfl

/-- A formula is written by what it holds, if its numbers are finite. -/
theorem isWritable_toJson {f : Formula} :
    f.toJson.IsWritable ↔ ∀ c ∈ f.conditions, c.literal.IsFinite := by
  induction f with
  | test c =>
    cases hc : c.literal <;>
      simp [toJson, conditions, Json.IsWritable, Json.MembersWritable, Literal.toJson,
        Literal.IsFinite, hc]
  | join connective left right ihleft ihright =>
    simp [toJson, conditions, Json.IsWritable, Json.MembersWritable, ihleft, ihright, or_imp,
      forall_and]

/-! ### Drafts -/

/-- A condition or join that is a whole text is read as one inside another. -/
theorem ofDraft_test (field : String) (comparison : Comparison) (v : Json) :
    ofDraft (Json.toDraft (.object [("type", .text "comparison"), ("field", .text field),
      ("operator", .text comparison.symbol), ("value", v)])) =
        (Literal.ofJson v).map fun literal ↦ .test ⟨field, comparison, literal⟩ := by
  rw [ofDraft, Json.tagged_toDraft (by simp)]
  exact testOfMembers_parts field comparison v

theorem ofDraft_join (connective : Connective) (v w : Json) :
    ofDraft (Json.toDraft (.object [("type", .text "logical"),
      ("operator", .text connective.symbol), ("left", v), ("right", w)])) =
        (ofJson v).bind fun left ↦ (ofJson w).map fun right ↦ .join connective left right := by
  rw [ofDraft, Json.tagged_toDraft (by simp)]
  exact joinOfMembers_parts connective v w

theorem ofDraft_toDraft (f : Formula) : ofDraft f.toJson.toDraft = .ok f := by
  cases f with
  | test c =>
    rw [toJson, ofDraft_test, Literal.ofJson_toJson]
    rfl
  | join connective left right =>
    rw [toJson, ofDraft_join, ofJson_toJson, ofJson_toJson]
    rfl

end Formula

end Criteria
