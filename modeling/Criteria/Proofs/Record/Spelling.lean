import Criteria.Compiled
import Criteria.Proofs.Literal
import Criteria.Proofs.Record.Loss

/-!
Values in place of which their string forms stand. A finite number reads back from its digits, a
truth value is no number in either form, and texts are compared with string forms alone. So no rule
tells a value from the text that spells it.
-/

set_option autoImplicit false
set_option relaxedAutoImplicit false

namespace Criteria

namespace Value

/-- Whether the value is no number, or a finite one. -/
def IsFinite : Value → Prop
  | .number x => x.isFinite = true
  | _ => True

/-- The text of the string form; null stays null. -/
def spelled : Value → Value
  | .null => .null
  | v => .text v.write

theorem write_spelled (v : Value) : v.spelled.write = v.write := by
  cases v <;> rfl

theorem isNull_spelled (v : Value) : v.spelled.isNull = v.isNull := by
  cases v <;> rfl

/-- The string form of a finite number spells the number, and that of a truth value none. -/
theorem number?_spelled {v : Value} (h : v.IsFinite) : v.spelled.number? = v.number? := by
  cases v with
  | number x =>
    change finiteNumeral? (Text.trimChars (Layout.plain.write x).toList) = some x
    rw [Layout.write, String.toList_ofList,
      Text.trimChars_of_noBlank (Literal.isBlank_of_mem_chars h), Decimal.finiteNumeral?_chars h]
  | text s => rfl
  | flag b => cases b <;> decide
  | null => rfl

end Value

namespace Comparison

variable {v : Value}

theorem ofValue_spelled (h : v.IsFinite) (op : Comparison) (literal : Literal) :
    op.ofValue v.spelled literal = op.ofValue v literal := by
  cases literal with
  | number n => rw [ofValue, ofValue, v.number?_spelled h, v.write_spelled]
  | text s => rw [ofValue, ofValue, v.write_spelled]

theorem ofField_spelled (h : v.IsFinite) (op : Comparison) (literal : Literal) :
    op.ofField (some v.spelled) literal = op.ofField (some v) literal := by
  rw [ofField, ofField, v.isNull_spelled, ofValue_spelled h]

end Comparison

namespace Record

/-- Whether all numbers of the record are finite. -/
def IsFinite (r : Record) : Prop :=
  ∀ name, ∀ v ∈ r.get? name, v.IsFinite

theorem mem_fields_of_get? {r : Record} {name : String} {v : Value} (h : r.get? name = some v) :
    (name, v) ∈ r.fields := by
  obtain ⟨front, back, hfields, -⟩ := List.lookup_eq_some_iff.mp h
  rw [hfields]
  exact List.mem_append_right front List.mem_cons_self

theorem isFinite_of_fields {r : Record} (h : ∀ field ∈ r.fields, field.2.IsFinite) :
    r.IsFinite :=
  fun name v hv ↦ h (name, v) (mem_fields_of_get? hv)

/-- Whether the second record is the first one, but that texts of their string forms stand in place
of some values. -/
def SpellsOut (r spelled : Record) : Prop :=
  ∀ name, spelled.get? name = r.get? name ∨
    spelled.get? name = (r.get? name).map Value.spelled

/-- The record with the string forms of the values under these names. -/
def spelledOut (r : Record) (names : List String) : Record :=
  ⟨r.fields.map fun field ↦
    (field.1, if field.1 ∈ names then field.2.spelled else field.2)⟩

theorem get?_spelledOut (r : Record) (names : List String) (name : String) :
    (r.spelledOut names).get? name =
      if name ∈ names then (r.get? name).map Value.spelled else r.get? name := by
  obtain ⟨fields⟩ := r
  induction fields with
  | nil => simp [spelledOut, get?]
  | cons field fields ih =>
    rw [spelledOut] at ih ⊢
    rw [List.map_cons, get?_cons, get?_cons, ih]
    by_cases hname : name = field.1
    · subst hname
      by_cases hmem : field.1 ∈ names <;> simp [hmem]
    · rw [if_neg hname, if_neg hname]

theorem spellsOut_spelledOut (r : Record) (names : List String) :
    r.SpellsOut (r.spelledOut names) := by
  intro name
  rw [get?_spelledOut]
  split
  · exact Or.inr rfl
  · exact Or.inl rfl

variable {r spelled : Record}

/-- A field shows the same, and meets the same conditions, when its value is spelled out. -/
theorem SpellsOut.shown_eq (h : r.SpellsOut spelled) (name : String) :
    Explanation.shown (spelled.get? name) = Explanation.shown (r.get? name) := by
  rcases h name with hsame | hspelled
  · rw [hsame]
  · rw [hspelled]
    cases r.get? name with
    | none => rfl
    | some v => exact v.write_spelled

theorem SpellsOut.holds_eq (h : r.SpellsOut spelled) (hfinite : r.IsFinite) (c : Condition) :
    c.holds spelled = c.holds r := by
  rw [Condition.holds, Condition.holds]
  rcases h c.field with hsame | hspelled
  · rw [hsame]
  · rw [hspelled]
    cases hvalue : r.get? c.field with
    | none => rfl
    | some v => exact Comparison.ofField_spelled (hfinite c.field v hvalue) _ _

end Record

namespace Compiled

/-- A rule sees the string forms of values only. Where texts of their string forms take the place of
any values of a record whose numbers are finite, the record comes out as before, the decision, its
grounds and its trace; they may do so under any names. A finite number and its digits meet the same
conditions, whatever the comparison and the literal. -/
theorem sees_string_forms_only (c : Compiled) (r : Record) (h : r.IsFinite) :
    (∀ spelled : Record, r.SpellsOut spelled →
      ∀ tracing, c.explain tracing spelled = c.explain tracing r) ∧
    (∀ names : List String, r.SpellsOut (r.spelledOut names) ∧
      ∀ name, (r.spelledOut names).get? name =
        if name ∈ names then (r.get? name).map Value.spelled else r.get? name) ∧
    ∀ x : Float, x.isFinite = true → ∀ (op : Comparison) (literal : Literal),
      op.ofField (some (.number x)) literal =
        op.ofField (some (.text (Layout.plain.write x))) literal := by
  refine ⟨fun spelled hspelled ↦ ?_,
    fun names ↦ ⟨r.spellsOut_spelledOut names, r.get?_spelledOut names⟩,
    fun x hx op literal ↦ (Comparison.ofField_spelled (v := .number x) hx op literal).symm⟩
  exact Formula.explain_congr fun d _ ↦ ⟨hspelled.holds_eq h d, hspelled.shown_eq d.field⟩

/-- Conditions on numbers and on texts, asked of a number, a truth value and negative zero. -/
def solvent : Compiled :=
  ⟨⟨"solvent", "", "", none, ⟨0, 0⟩, ⟨0, 0⟩⟩,
    .join .and (.test ⟨"age", .above, .number 30⟩)
      (.join .or (.test ⟨"vip", .equal, .text "true"⟩) (.test ⟨"debt", .different, .number 0⟩)), 1⟩

def member : Record :=
  ⟨[("age", .number 35), ("vip", .flag true), ("debt", .number (-0.0)), ("team", .null)]⟩

/-- All four values spelled out, of which null stays as it is. -/
theorem sees_string_forms_only_of_member :
    (member.spelledOut ["age", "vip", "debt", "team"]).fields =
        [("age", .text "35"), ("vip", .text "true"), ("debt", .text "-0"), ("team", .null)] ∧
      solvent.explain true (member.spelledOut ["age", "vip", "debt", "team"]) =
        solvent.explain true member ∧
      (solvent.explain true member).matched = ["age > 30", "vip = 'true'"] := by
  have hfinite : member.IsFinite := by
    refine Record.isFinite_of_fields fun field hfield ↦ ?_
    simp only [member, List.mem_cons, List.not_mem_nil, or_false] at hfield
    rcases hfield with rfl | rfl | rfl | rfl
    · exact (by decide : (35 : Float).isFinite = true)
    · trivial
    · exact (by decide : (-0.0 : Float).isFinite = true)
    · trivial
  obtain ⟨hexplain, hspelled, -⟩ := sees_string_forms_only solvent member hfinite
  refine ⟨?_, hexplain _ (hspelled _).1 true, by decide +kernel⟩
  have hdigits : Layout.plain.write 35 = "35" ∧ Layout.plain.write (-0.0) = "-0" := by
    decide +kernel
  simp [Record.spelledOut, member, Value.spelled, Value.write, hdigits]

end Compiled

end Criteria
