import Criteria.Proofs.Formula.Json
import Criteria.Proofs.Steps

/-!
What the JSON text of a formula keeps of it: everything, as long as its numbers are finite. A number
without a JSON text is written as null, and no literal is read from null; so a formula with such a
number is refused, and none is ever read back as another one.
-/

set_option autoImplicit false
set_option relaxedAutoImplicit false

namespace Criteria

namespace Json

mutual

/-- The value that the text of a value says. -/
def said : Json → Json
  | .real x => if x.isFinite then .real x else .null
  | .array items => .array (itemsSaid items)
  | .object members => .object (membersSaid members)
  | v => v

def itemsSaid : List Json → List Json
  | [] => []
  | item :: items => item.said :: itemsSaid items

def membersSaid : List (String × Json) → List (String × Json)
  | [] => []
  | (name, v) :: members => (name, v.said) :: membersSaid members

end

mutual

theorem onto_said (v : Json) (rest : List Char) : v.said.onto rest = v.onto rest := by
  match v with
  | .null | .bool _ | .int _ | .text _ => rfl
  | .real x =>
    rw [said, onto, realOnto]
    by_cases h : x.isFinite = true
    · rw [if_pos h, if_pos h, onto, realOnto, if_pos h]
    · rw [if_neg h, if_neg h, onto]
  | .array items => rw [said, onto, onto, itemsOnto_said items]
  | .object members => rw [said, onto, onto, membersOnto_said members]

theorem itemsOnto_said (items : List Json) (rest : List Char) :
    itemsOnto (itemsSaid items) rest = itemsOnto items rest := by
  match items with
  | [] => rfl
  | [item] => rw [itemsSaid, itemsSaid, itemsOnto, itemsOnto, onto_said item]
  | item :: next :: items =>
    rw [itemsSaid, itemsSaid, itemsOnto, itemsOnto, onto_said item, ← itemsSaid,
      itemsOnto_said (next :: items)]

theorem membersOnto_said (members : List (String × Json)) (rest : List Char) :
    membersOnto (membersSaid members) rest = membersOnto members rest := by
  match members with
  | [] => rfl
  | [(name, v)] => rw [membersSaid, membersSaid, membersOnto, membersOnto, onto_said v]
  | (name, v) :: (next, w) :: members =>
    rw [membersSaid, membersSaid, membersOnto, membersOnto, onto_said v, ← membersSaid,
      membersOnto_said ((next, w) :: members)]

end

theorem write_said (v : Json) : v.said.write = v.write := by
  rw [write, write, onto_said]

end Json

namespace Literal

variable {l : Literal}

theorem isWritable_said (l : Literal) : l.toJson.said.IsWritable := by
  cases l with
  | number x =>
    rw [toJson, Json.said]
    split
    · assumption
    · trivial
  | text s => trivial

theorem said_of_isFinite (h : l.IsFinite) : l.toJson.said = l.toJson := by
  cases l with
  | number x => exact if_pos h
  | text s => rfl

/-- No literal is read from the text of a number that is not finite. -/
theorem ofJson_said_of_not_isFinite (h : ¬l.IsFinite) :
    ofJson l.toJson.said = .error (.noVariant "Literal") := by
  cases l with
  | number x =>
    have hnull : (number x).toJson.said = .null := if_neg h
    rw [hnull]
    rfl
  | text s => exact absurd trivial h

/-- A finite number or a text equals itself. -/
theorem beq_self_of_isFinite (h : l.IsFinite) : (l == l) = true := by
  cases l with
  | number x => exact Binary64.beq_self_of_isFinite h
  | text s => exact beq_self_eq_true s

end Literal

namespace Formula

variable {f : Formula}

theorem isWritable_said (f : Formula) : f.toJson.said.IsWritable := by
  induction f with
  | test c => exact ⟨trivial, trivial, trivial, c.literal.isWritable_said, trivial⟩
  | join connective left right ihleft ihright =>
    exact ⟨trivial, trivial, ihleft, ihright, trivial⟩

theorem said_of_isFinite (h : ∀ c ∈ f.conditions, c.literal.IsFinite) :
    f.toJson.said = f.toJson := by
  induction f with
  | test c =>
    simp [toJson, Json.said, Json.membersSaid,
      Literal.said_of_isFinite (h c List.mem_cons_self)]
  | join connective left right ihleft ihright =>
    obtain ⟨hleft, hright⟩ := List.forall_mem_append.mp h
    simp [toJson, Json.said, Json.membersSaid, ihleft hleft, ihright hright]

/-- The operands on the left of the first number that is not finite are read, and then it is
refused. -/
theorem ofJson_said_of_not_isFinite (h : ∃ c ∈ f.conditions, ¬c.literal.IsFinite) :
    ofJson f.toJson.said = .error (.noVariant "Literal") := by
  induction f with
  | test c =>
    obtain ⟨d, hd, hliteral⟩ := h
    obtain rfl : d = c := List.mem_singleton.mp hd
    refine (ofJson_test d.field d.comparison d.literal.toJson.said).trans ?_
    rw [Literal.ofJson_said_of_not_isFinite hliteral]
    rfl
  | join connective left right ihleft ihright =>
    refine (ofJson_join connective left.toJson.said right.toJson.said).trans ?_
    by_cases hleft : ∀ c ∈ left.conditions, c.literal.IsFinite
    · have hright : ∃ c ∈ right.conditions, ¬c.literal.IsFinite := by
        obtain ⟨c, hc, hliteral⟩ := h
        refine ⟨c, (List.mem_append.mp hc).resolve_left fun hc ↦ ?_, hliteral⟩
        exact hliteral (hleft c hc)
      rw [said_of_isFinite hleft, ofJson_toJson, ihright hright]
      rfl
    · rw [ihleft (by simpa using hleft)]
      rfl

theorem ofDraft_said (f : Formula) : ofDraft f.toJson.said.toDraft = ofJson f.toJson.said := by
  cases f with
  | test c => exact (ofDraft_test _ _ _).trans (ofJson_test _ _ _).symm
  | join connective left right => exact (ofDraft_join _ _ _).trans (ofJson_join _ _ _).symm

theorem ofText_write (f : Formula) : ofText f.toJson.write = ofJson f.toJson.said := by
  rw [ofText, Json.decodeText, ← Json.write_said, Json.readDraft_write (isWritable_said f)]
  change (do
    let g ← ofDraft f.toJson.said.toDraft
    Json.wellFormed true
    return g) = _
  rw [ofDraft_said]
  cases ofJson f.toJson.said <;> rfl

/-- A formula whose numbers are finite is read back from its JSON text as it was, whatever its
shape, its depth, and the characters of its fields and texts; and it equals itself, numbers being
equal as numbers are. A formula with a number that is not finite is refused. -/
theorem json_encoding_lossless (f : Formula) :
    ((∀ c ∈ f.conditions, c.literal.IsFinite) →
      ofText f.toJson.write = .ok f ∧ (f == f) = true) ∧
    ((∃ c ∈ f.conditions, ¬c.literal.IsFinite) →
      ofText f.toJson.write = .error (.noVariant "Literal")) := by
  rw [ofText_write]
  constructor
  · intro hfinite
    rw [said_of_isFinite hfinite]
    refine ⟨ofJson_toJson f, beq_self_of_literals fun c hc ↦ ?_⟩
    exact Literal.beq_self_of_isFinite (hfinite c hc)
  · exact ofJson_said_of_not_isFinite

/-- A negative zero, a field of quotes and control characters, no field at all, and a text that
looks like a number. -/
def awkward : Formula :=
  join .or (test ⟨"\"\\\x01\n", .equal, .number (-0.0)⟩)
    (join .and (test ⟨"", .below, .text "1e5"⟩) (test ⟨"null", .different, .text "'"⟩))

theorem json_encoding_lossless_of_awkward :
    ofText awkward.toJson.write = .ok awkward ∧
      ofText (join .and awkward (test ⟨"a", .above, .number (1 / 0)⟩)).toJson.write =
        .error (.noVariant "Literal") := by
  refine ⟨((json_encoding_lossless awkward).1 (by decide)).1, ?_⟩
  refine (json_encoding_lossless (join .and awkward _)).2 ⟨⟨"a", .above, .number (1 / 0)⟩, ?_, ?_⟩
  · simp [conditions]
  · decide

end Formula

end Criteria
