import Criteria.Proofs.Json.Range
import Criteria.Proofs.Record.Spelling
import Criteria.Proofs.Rule.Json
import Criteria.Request.Read

/-!
Values that come from JSON. Whether a value is a text of its own, a field of a record, or a field of
the data of a request, its number is finite if it is one; an integer becomes the nearest number.
-/

set_option autoImplicit false
set_option relaxedAutoImplicit false

namespace Criteria

/-! ### The data of requests -/

namespace Json

def Contents.IsWritable : Contents → Prop
  | .members named => ∀ m ∈ named, m.2.IsWritable
  | .items values => ∀ v ∈ values, v.IsWritable

namespace Draft

variable {α : Type} {tag wanted : String} {known : List (String × α)}

theorem isWritable_addTagged {state state' : Option α × List (String × Json)}
    {m : Option String × Draft} (hstate : ∀ m ∈ state.2, m.2.IsWritable) (hm : m.2.IsWritable)
    (h : addTagged tag known state m = .ok state') : ∀ m ∈ state'.2, m.2.IsWritable := by
  obtain ⟨_ | name, d⟩ := m
  · cases h
  · rw [addTagged] at h
    split at h
    · obtain ⟨place, -, h⟩ := bind_eq_ok_iff.mp h
      cases h
      exact hstate
    · obtain ⟨v, hv, h⟩ := bind_eq_ok_iff.mp h
      cases h
      exact List.forall_mem_cons.mpr ⟨hm.asJson hv, hstate⟩

/-- What stands beside a tag are values of the text. -/
theorem isWritable_tagged {d : Draft} (hd : d.IsWritable) {a : α} {contents : Contents}
    (h : d.tagged tag wanted known = .ok (a, contents)) : contents.IsWritable := by
  cases hd with
  | broken => cases h
  | leaf => cases h
  | @object members closed hmembers =>
    obtain ⟨⟨place, done⟩, hfold, h⟩ := bind_eq_ok_iff.mp h
    obtain ⟨_, -, h⟩ := bind_eq_ok_iff.mp h
    obtain ⟨_, -, h⟩ := bind_eq_ok_iff.mp h
    cases h
    have hdone : ∀ m ∈ done, m.2.IsWritable :=
      foldlM_induction_mem (motive := fun state ↦ ∀ m ∈ state.2, m.2.IsWritable)
        (fun _ m hm _ hstate ↦ isWritable_addTagged hstate (hmembers m hm)) (by simp) hfold
    exact fun m hm ↦ hdone m (List.mem_reverse.mp hm)
  | @array items closed hitems =>
    cases items with
    | nil =>
      obtain ⟨_, -, h⟩ := bind_eq_ok_iff.mp h
      cases h
    | cons first rest =>
      obtain ⟨_, -, h⟩ := bind_eq_ok_iff.mp h
      split at h
      · rename_i values hrest _
        cases h
        exact isWritable_wholeItems
          (fun d hd ↦ (hitems d (List.mem_cons_of_mem first hd)).whole) (by simp) hrest
      · cases h

end Draft

end Json

namespace Request

theorem Members.isWritable_add {action : Action} {m m' : Members} {name : String} {v : Json}
    (hm : ∀ data ∈ m.data, data.IsWritable) (hv : v.IsWritable)
    (h : m.add action name v = .ok m') : ∀ data ∈ m'.data, data.IsWritable := by
  unfold Members.add at h
  split at h
  · split at h
    case h_4 =>
      obtain ⟨filled, hfill, h⟩ := bind_eq_ok_iff.mp h
      cases h
      obtain ⟨_, hdecode, rfl⟩ := Rule.exists_of_fill hfill
      cases hdecode
      rintro _ ⟨⟩
      exact hv
    case h_6 =>
      cases h
      exact hm
    all_goals
      obtain ⟨_, -, h⟩ := bind_eq_ok_iff.mp h
      cases h
      exact hm
  · cases h
    exact hm

theorem Members.data_of_finish {action : Action} {m : Members} {id : String} {data : Json}
    (h : m.finish action = .ok (.evaluate id data)) : m.data = some data := by
  unfold Members.finish at h
  split at h
  case h_7 =>
    obtain ⟨_, -, h⟩ := bind_eq_ok_iff.mp h
    obtain ⟨_, hdata, h⟩ := bind_eq_ok_iff.mp h
    cases h
    unfold Json.require at hdata
    split at hdata
    · rename_i hfield
      cases hdata
      exact hfield
    · cases hdata
  case h_2 => cases h
  case h_4 =>
    obtain ⟨_, -, h⟩ := bind_eq_ok_iff.mp h
    obtain ⟨_, -, h⟩ := bind_eq_ok_iff.mp h
    cases h
  all_goals
    obtain ⟨_, -, h⟩ := bind_eq_ok_iff.mp h
    cases h

/-- The data of a request to decide have integers of 64 bits and finite numbers only. -/
theorem isWritable_of_ofText {s id : String} {data : Json}
    (h : ofText s = .ok (.evaluate id data)) : data.IsWritable := by
  obtain ⟨d, hd, h⟩ := Json.exists_of_decodeText h
  obtain ⟨⟨action, contents⟩, htagged, h⟩ := bind_eq_ok_iff.mp h
  have hcontents := Json.Draft.isWritable_tagged hd htagged
  cases contents with
  | members members =>
    obtain ⟨m, hfold, hfinish⟩ := bind_eq_ok_iff.mp h
    have hm : ∀ data ∈ m.data, data.IsWritable :=
      foldlM_induction_mem (motive := fun m : Members ↦ ∀ data ∈ m.data, data.IsWritable)
        (fun _ member hmember _ hm ↦ Members.isWritable_add hm (hcontents member hmember))
        (by simp [Members.empty]) hfold
    exact hm data (Members.data_of_finish hfinish)
  | items items =>
    obtain ⟨m, hfold, hfinish⟩ := bind_eq_ok_iff.mp h
    have hm : ∀ data ∈ m.data, data.IsWritable :=
      foldlM_induction_mem (motive := fun m : Members ↦ ∀ data ∈ m.data, data.IsWritable)
        (fun _ member hmember _ hm ↦ Members.isWritable_add hm
          (hcontents member.2 (List.of_mem_zip hmember).2))
        (by simp [Members.empty]) hfold
    split at hfinish
    · cases hfinish
    · rename_i request hrequest
      obtain ⟨_, -, h⟩ := bind_eq_ok_iff.mp hfinish
      cases h
      exact hm data (Members.data_of_finish hrequest)

end Request

/-! ### Records -/

theorem Value.isFinite_ofJson {v : Json} (h : v.IsWritable) : (Value.ofJson v).IsFinite := by
  cases v with
  | int n =>
    obtain ⟨hlow, hhigh⟩ := h
    exact Json.isFinite_toFloat _ (by omega)
  | real x => exact h
  | null | bool | text | array | object => trivial

theorem Record.fields_foldl_insert (pairs : List (String × Value)) (r : Record) :
    (pairs.foldl (fun r pair ↦ r.insert pair.1 pair.2) r).fields = pairs.reverse ++ r.fields := by
  induction pairs generalizing r with
  | nil => rfl
  | cons pair pairs ih =>
    rw [List.foldl_cons, ih, List.reverse_cons, List.append_assoc]
    rfl

theorem Record.fields_ofPairs (pairs : List (String × Value)) :
    (ofPairs pairs).fields = pairs.reverse :=
  (fields_foldl_insert pairs empty).trans (List.append_nil _)

/-- The numbers of a record of a text's value are finite. -/
theorem Record.isFinite_of_ofJson {data : Json} {r : Record} (hdata : data.IsWritable)
    (h : ofJson data = .ok r) : r.IsFinite := by
  unfold ofJson at h
  split at h
  · rename_i members
    cases h
    refine isFinite_of_fields ?_
    rw [fields_ofPairs]
    simp only [List.mem_reverse, List.forall_mem_map]
    exact fun m hm ↦ Value.isFinite_ofJson (Json.membersWritable_iff.mp hdata m hm)
  · cases h

/-- A record that a text holds has finite numbers only. -/
theorem Record.isFinite_of_ofText {s : String} {r : Record} (h : ofText s = .ok r) :
    r.IsFinite := by
  unfold ofText at h
  split at h
  · cases h
  · rename_i data hdata
    exact isFinite_of_ofJson (Json.isWritable_of_ofText hdata) h

/-! ### Decoded values -/

/-- Whether a value comes from JSON: from a text of its own, from a record that a text holds, or
from the data of a request. -/
inductive Value.IsDecoded : Value → Prop
  | text {limit : Option Nat} {s : String} {j : Json} (h : Json.ofText limit s = .ok j) :
    IsDecoded (.ofJson j)
  | record {s name : String} {r : Record} {v : Value} (h : Record.ofText s = .ok r)
    (hv : r.get? name = some v) : IsDecoded v
  | request {s id name : String} {data : Json} {r : Record} {v : Value}
    (h : Request.ofText s = .ok (.evaluate id data)) (hr : Record.ofJson data = .ok r)
    (hv : r.get? name = some v) : IsDecoded v

/-- JSON has no infinity, and not-a-number neither. -/
theorem Value.IsDecoded.isFinite {v : Value} (h : v.IsDecoded) : v.IsFinite := by
  cases h with
  | text h => exact isFinite_ofJson (Json.isWritable_of_ofText h)
  | @record s name r v h hv => exact Record.isFinite_of_ofText h name v hv
  | @request s id name data r v h hr hv =>
    exact Record.isFinite_of_ofJson (Request.isWritable_of_ofText h) hr name v hv

end Criteria
