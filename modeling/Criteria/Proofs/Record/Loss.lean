import Criteria.Proofs.Formula.Fields
import Criteria.Proofs.Formula.Matched

/-!
Records that lose data. A field that is absent, or null, meets no condition, so a record from which
fields are taken, or in which they become null, meets no formula that it did not meet before. Taking
a field and making it null come to the same.
-/

set_option autoImplicit false
set_option relaxedAutoImplicit false

namespace Criteria

namespace Record

/-- The value under a name, if there is one that is not null. -/
def known? (r : Record) (name : String) : Option Value :=
  (r.get? name).filter fun v ↦ !v.isNull

/-- The record without the fields of these names. -/
def without (r : Record) (names : List String) : Record :=
  ⟨r.fields.filter fun field ↦ field.1 ∉ names⟩

/-- The record with null under these names. -/
def nullified (r : Record) (names : List String) : Record :=
  names.foldl (fun r name ↦ r.insert name .null) r

/-- Whether the second record is the first one less some data: each of its fields is as it was, or
has been taken, or is null. -/
def Loses (r lesser : Record) : Prop :=
  ∀ name, lesser.get? name = r.get? name ∨ lesser.get? name = none ∨
    lesser.get? name = some .null

variable {r lesser : Record} {name : String}

theorem get?_cons (field : String × Value) (fields : List (String × Value)) (name : String) :
    get? ⟨field :: fields⟩ name = if name = field.1 then some field.2 else get? ⟨fields⟩ name := by
  rw [get?, List.lookup_cons]
  by_cases h : name = field.1
  · rw [if_pos h, beq_iff_eq.mpr h]
  · rw [if_neg h, beq_eq_false_iff_ne.mpr h]
    rfl

theorem get?_without (r : Record) (names : List String) (name : String) :
    (r.without names).get? name = if name ∈ names then none else r.get? name := by
  obtain ⟨fields⟩ := r
  induction fields with
  | nil => simp [get?, without]
  | cons field fields ih =>
    rw [without] at ih ⊢
    by_cases hfield : field.1 ∈ names
    · rw [List.filter_cons_of_neg (by simpa using hfield), ih, get?_cons]
      by_cases hname : name ∈ names
      · rw [if_pos hname, if_pos hname]
      · -- The field that goes has another name.
        rw [if_neg hname, if_neg hname, if_neg]
        rintro rfl
        exact hname hfield
    · rw [List.filter_cons_of_pos (by simpa using hfield), get?_cons, get?_cons, ih]
      by_cases hname : name = field.1
      · rw [if_pos hname, if_pos hname, if_neg (hname ▸ hfield)]
      · rw [if_neg hname, if_neg hname]

theorem get?_nullified (r : Record) (names : List String) (name : String) :
    (r.nullified names).get? name = if name ∈ names then some .null else r.get? name := by
  induction names generalizing r with
  | nil => simp [nullified]
  | cons first names ih =>
    rw [nullified, List.foldl_cons, ← nullified, ih, insert, get?_cons]
    by_cases hname : name ∈ names
    · simp [hname]
    · simp [hname]

theorem loses_without (r : Record) (names : List String) : r.Loses (r.without names) := by
  intro name
  rw [get?_without]
  split
  · exact Or.inr (Or.inl rfl)
  · exact Or.inl rfl

theorem loses_nullified (r : Record) (names : List String) : r.Loses (r.nullified names) := by
  intro name
  rw [get?_nullified]
  split
  · exact Or.inr (Or.inr rfl)
  · exact Or.inl rfl

/-- Data may be lost little by little. -/
theorem Loses.trans {least : Record} (h : r.Loses lesser) (h' : lesser.Loses least) :
    r.Loses least := by
  intro name
  rcases h' name with hsame | hlost
  · rw [hsame]
    exact h name
  · exact Or.inr hlost

theorem known?_eq_none_iff :
    r.known? name = none ↔ r.get? name = none ∨ r.get? name = some .null := by
  unfold known?
  cases r.get? name with
  | none => simp
  | some v => cases v <;> simp [Value.isNull]

theorem known?_of_loses (h : r.Loses lesser) (name : String) :
    lesser.known? name = r.known? name ∨ lesser.known? name = none := by
  rw [known?_eq_none_iff]
  refine (h name).imp_left fun hsame ↦ ?_
  rw [known?, hsame, known?]

theorem known?_without (r : Record) (names : List String) (name : String) :
    (r.without names).known? name = if name ∈ names then none else r.known? name := by
  rw [known?, get?_without]
  split <;> rfl

theorem known?_nullified (r : Record) (names : List String) (name : String) :
    (r.nullified names).known? name = if name ∈ names then none else r.known? name := by
  rw [known?, get?_nullified]
  split <;> rfl

end Record

/-- A condition hangs on what is known under its name. -/
theorem Condition.holds_eq_any (c : Condition) (r : Record) :
    c.holds r = (r.known? c.field).any fun v ↦ c.comparison.ofValue v c.literal := by
  rw [holds, Comparison.ofField.eq_def, Record.known?]
  cases r.get? c.field with
  | none => rfl
  | some v => cases h : v.isNull <;> simp [h]

namespace Formula

variable {f : Formula} {r lesser : Record}

/-- Records of which the same is known under the names of a formula meet the same conditions of
it. -/
theorem holds_condition_congr (h : ∀ name ∈ f.fieldNames, r.known? name = lesser.known? name) :
    ∀ c ∈ f.conditions, c.holds r = c.holds lesser := by
  intro c hc
  rw [c.holds_eq_any, c.holds_eq_any, h c.field (field_mem_fieldNames hc)]

/-- A condition that a record meets, it met before it lost data. -/
theorem holds_condition_of_loses (h : r.Loses lesser) {c : Condition}
    (hc : c.holds lesser = true) : c.holds r = true := by
  rw [c.holds_eq_any] at hc ⊢
  rcases Record.known?_of_loses h c.field with hsame | hnone
  · rwa [← hsame]
  · rw [hnone] at hc
    exact absurd hc Bool.false_ne_true

/-- The conditions that are met by a record that lost data stand, in the same order, among those
that were met before. -/
theorem met_sublist (h : r.Loses lesser) (f : Formula) :
    (f.met lesser).Sublist (f.met r) :=
  List.monotone_filter_right _ fun _ ↦ holds_condition_of_loses h

/-- Losing data never admits. A record that has lost data, fields being taken or null, meets no
formula that it did not meet before, and the grounds of the decision are among those of before, in
the same order. It makes no difference whether the fields are taken or null. Where nothing is known
under the names of the formula, it is not met, and there are no grounds. -/
theorem losing_data_never_admits (f : Formula) (tracing : Bool) (r : Record) :
    (∀ lesser : Record, r.Loses lesser →
      (f.holds lesser = true → f.holds r = true) ∧
        (f.explain tracing lesser).matched.Sublist (f.explain tracing r).matched) ∧
    (∀ names : List String, r.Loses (r.without names) ∧ r.Loses (r.nullified names) ∧
      f.holds (r.without names) = f.holds (r.nullified names) ∧
        (f.explain tracing (r.without names)).matched =
          (f.explain tracing (r.nullified names)).matched) ∧
    ((∀ name ∈ f.fieldNames, r.get? name = none ∨ r.get? name = some .null) →
      f.holds r = false ∧ (f.explain tracing r).matched = []) := by
  simp only [matched_explain]
  refine ⟨fun lesser h ↦ ⟨?_, ?_⟩, fun names ↦ ⟨r.loses_without names, r.loses_nullified names, ?_⟩,
    fun h ↦ ?_⟩
  · exact holds_mono fun c _ ↦ holds_condition_of_loses h
  · exact (met_sublist h f).map _
  · have hsame : ∀ c ∈ f.conditions, c.holds (r.without names) = c.holds (r.nullified names) :=
      holds_condition_congr fun name _ ↦ by rw [r.known?_without, r.known?_nullified]
    exact ⟨holds_congr hsame, by rw [met_congr hsame]⟩
  · have hunmet : ∀ c ∈ f.conditions, c.holds r = false := by
      intro c hc
      rw [c.holds_eq_any, Record.known?_eq_none_iff.mpr (h c.field (field_mem_fieldNames hc))]
      rfl
    refine ⟨holds_eq_false hunmet, ?_⟩
    rw [List.map_eq_nil_iff, met, List.filter_eq_nil_iff]
    simpa using hunmet

/-- Two ways to be admitted. -/
def twoWays : Formula :=
  .join .or
    (.join .and (.test ⟨"team", .different, .text "x"⟩) (.test ⟨"level", .equal, .text "2"⟩))
    (.test ⟨"team", .equal, .text "y"⟩)

def applicant : Record :=
  ⟨[("level", .text "2"), ("team", .text "y"), ("vip", .flag true)]⟩

/-- One field is taken, and another one made null. -/
def lesserApplicant : Record :=
  (applicant.without ["vip"]).nullified ["level"]

theorem losing_data_never_admits_of_two_ways :
    applicant.Loses lesserApplicant ∧ twoWays.holds lesserApplicant = true ∧
      twoWays.holds applicant = true ∧
      ["team != 'x'", "team = 'y'"].Sublist (twoWays.explain true applicant).matched ∧
      twoWays.holds (lesserApplicant.without ["team"]) = false := by
  have hloses : applicant.Loses lesserApplicant :=
    (applicant.loses_without ["vip"]).trans (Record.loses_nullified _ ["level"])
  have hlesser : twoWays.holds lesserApplicant = true := by decide
  obtain ⟨hadmits, hmatched⟩ := (losing_data_never_admits twoWays true applicant).1 _ hloses
  have hunknown : ∀ name ∈ twoWays.fieldNames, (lesserApplicant.without ["team"]).get? name = none ∨
      (lesserApplicant.without ["team"]).get? name = some .null := by
    rw [show twoWays.fieldNames = ["team", "level"] by decide]
    intro name hname
    obtain rfl | rfl : name = "team" ∨ name = "level" := by simpa using hname
    · exact Or.inl rfl
    · exact Or.inr rfl
  have hnothing := (losing_data_never_admits twoWays true (lesserApplicant.without ["team"])).2.2
  exact ⟨hloses, hlesser, hadmits hlesser, hmatched, (hnothing hunknown).1⟩

end Formula

end Criteria
