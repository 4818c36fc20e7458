import Criteria.Formula

/-!
The fields that a formula mentions. Its list of names holds each of them once and nothing else.
-/

set_option autoImplicit false
set_option relaxedAutoImplicit false

namespace Criteria.Formula

/-- Whether some condition of the formula is on the field with this name. -/
def Mentions (name : String) : Formula → Prop
  | .test c => c.field = name
  | .join _ left right => left.Mentions name ∨ right.Mentions name

theorem mentions_iff {name : String} {f : Formula} :
    f.Mentions name ↔ name ∈ f.conditions.map Condition.field := by
  induction f with
  | test c => simp [Mentions, conditions, eq_comm]
  | join connective left right ihleft ihright =>
    rw [Mentions, ihleft, ihright, conditions, List.map_append, List.mem_append]

theorem mem_fieldNames {name : String} {f : Formula} : name ∈ f.fieldNames ↔ f.Mentions name := by
  rw [fieldNames, List.mem_eraseDups, mentions_iff]

theorem field_mem_fieldNames {c : Condition} {f : Formula} (h : c ∈ f.conditions) :
    c.field ∈ f.fieldNames :=
  mem_fieldNames.mpr (mentions_iff.mpr (List.mem_map_of_mem h))

theorem nodup_eraseDups (names : List String) : names.eraseDups.Nodup := by
  induction hn : names.length using Nat.strongRecOn generalizing names with
  | ind n ih =>
    cases names with
    | nil => exact List.nodup_nil
    | cons name names =>
      rw [List.eraseDups_cons, List.nodup_cons]
      have hshorter := List.length_filter_le (fun b ↦ !b == name) names
      rw [List.length_cons] at hn
      exact ⟨by simp, ih _ (by omega) _ rfl⟩

theorem nodup_fieldNames (f : Formula) : f.fieldNames.Nodup :=
  nodup_eraseDups _

end Criteria.Formula
