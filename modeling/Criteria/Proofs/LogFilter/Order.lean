import Criteria.LogFilter
import Criteria.Proofs.Decimal.Order

/-!
The order of directives. It is the order by a row of keys, one after another, so it is transitive,
and directives for the same messages take each other's place in it. Not-a-number would be out of
order among the values of fields. It is a value of its own kind, so every directive that is read has
its place in the order.
-/

set_option autoImplicit false
set_option relaxedAutoImplicit false

namespace Criteria

open Std

namespace FieldValue

/-! ### Values -/

/-- Not-a-number is kept apart from the other numbers. -/
def IsOrdered : FieldValue → Prop
  | .real x => x.isNaN = false
  | _ => True

def isTrue : FieldValue → Bool
  | .flag b => b
  | _ => false

def side : FieldValue → Int
  | .real x => Binary64.side x
  | _ => 0

def fraction : FieldValue → ℚ
  | .real x => Binary64.value x
  | _ => 0

def whole : FieldValue → Int
  | .integer n => n
  | _ => 0

def count : FieldValue → Nat
  | .natural n => n
  | _ => 0

def text : FieldValue → String
  | .pattern s => s
  | _ => ""

/-- Values by their kind, and then by what makes a difference within the kind. -/
instance : Ord FieldValue where
  compare :=
    compareLex (compareOn rank) <| compareLex (compareOn isTrue) <|
      compareLex (compareOn side) <| compareLex (compareOn fraction) <|
        compareLex (compareOn whole) <| compareLex (compareOn count) (compareOn text)

instance : TransOrd FieldValue :=
  inferInstanceAs <| TransCmp <|
    compareLex (compareOn rank) <| compareLex (compareOn isTrue) <|
      compareLex (compareOn side) <| compareLex (compareOn fraction) <|
        compareLex (compareOn whole) <| compareLex (compareOn count) (compareOn text)

variable {v w : FieldValue}

theorem compare_eq_then (v w : FieldValue) : compare v w =
    ((compare v.rank w.rank).then <| (compare v.isTrue w.isTrue).then <|
      (compare v.side w.side).then <| (compare v.fraction w.fraction).then <|
        (compare v.whole w.whole).then <| (compare v.count w.count).then <|
          compare v.text w.text) :=
  rfl

theorem order_real {x y : Float} (hx : x.isNaN = false) (hy : y.isNaN = false) :
    (real x).order (real y) =
      (compare (Binary64.side x) (Binary64.side y)).then
        (compare (Binary64.value x) (Binary64.value y)) := by
  have hlt := Binary64.lt_iff_of_isNaN_eq_false hx hy
  have hgt := Binary64.lt_iff_of_isNaN_eq_false hy hx
  rw [OrientedOrd.eq_swap (a := Binary64.side y), OrientedOrd.eq_swap (a := Binary64.value y),
    ← Ordering.swap_then, Ordering.swap_eq_lt] at hgt
  change (if x < y then Ordering.lt else if y < x then .gt else .eq) = _
  cases hsame : (compare (Binary64.side x) (Binary64.side y)).then
    (compare (Binary64.value x) (Binary64.value y)) with
  | lt => rw [if_pos (hlt.mpr hsame)]
  | gt => rw [if_neg (by simp [hlt, hsame]), if_pos (hgt.mpr hsame)]
  | eq => rw [if_neg (by simp [hlt, hsame]), if_neg (by simp [hgt, hsame])]

theorem order_eq_compare (hv : v.IsOrdered) (hw : w.IsOrdered) : v.order w = compare v w := by
  rw [compare_eq_then]
  cases v with
  | flag a =>
    cases w with
    | flag b => simp [order, rank, isTrue, side, fraction, whole, count, text]
    | real | notANumber | integer | natural | pattern => rfl
  | real x =>
    cases w with
    | real y =>
      rw [order_real hv hw]
      simp [rank, isTrue, side, fraction, whole, count, text]
    | flag | notANumber | integer | natural | pattern => rfl
  | notANumber =>
    cases w with
    | notANumber => rfl
    | flag | real | integer | natural | pattern => rfl
  | integer m =>
    cases w with
    | integer n => simp [order, rank, isTrue, side, fraction, whole, count, text]
    | flag | real | notANumber | natural | pattern => rfl
  | natural m =>
    cases w with
    | natural n => simp [order, rank, isTrue, side, fraction, whole, count, text]
    | flag | real | notANumber | integer | pattern => rfl
  | pattern s =>
    cases w with
    | pattern t => simp [order, rank, isTrue, side, fraction, whole, count, text]
    | flag | real | notANumber | integer | natural => rfl

/-- Every value that is read has its place in the order. -/
theorem isOrdered_of_read? {cs : List Char} (h : read? cs = some v) : v.IsOrdered := by
  unfold read? at h
  split at h
  · cases h
    trivial
  split at h
  · cases h
    trivial
  split at h
  case h_3 x _ _ _ =>
    cases hx : x.isNaN with
    | true =>
      rw [hx] at h
      cases h
      trivial
    | false =>
      rw [hx] at h
      cases h
      exact hx
  case h_4 =>
    split at h
    · cases h
      trivial
    · cases h
  all_goals
    cases h
    trivial

end FieldValue

namespace SpanField

/-! ### Fields -/

instance : Ord SpanField where
  compare :=
    compareLex (compareOn fun f ↦ f.value.isSome) <|
      compareLex (compareOn SpanField.name) (compareOn SpanField.value)

instance : TransOrd SpanField :=
  inferInstanceAs <| TransCmp <|
    compareLex (compareOn fun f ↦ f.value.isSome) <|
      compareLex (compareOn SpanField.name) (compareOn SpanField.value)

theorem compare_eq_then (a b : SpanField) : compare a b =
    ((compare a.value.isSome b.value.isSome).then <| (compare a.name b.name).then <|
      compare a.value b.value) :=
  rfl

def IsOrdered (f : SpanField) : Prop :=
  ∀ v ∈ f.value, v.IsOrdered

theorem order_eq_compare {a b : SpanField} (ha : a.IsOrdered) (hb : b.IsOrdered) :
    a.order b = compare a b := by
  obtain ⟨name, value⟩ := a
  obtain ⟨name', value'⟩ := b
  rw [compare_eq_then, order]
  cases value with
  | none => cases value' <;> rfl
  | some v =>
    cases value' with
    | none => rfl
    | some w =>
      dsimp only
      rw [FieldValue.order_eq_compare (ha v rfl) (hb w rfl)]
      rfl

theorem isOrdered_of_read? {cs : List Char} {f : SpanField} (h : read? cs = some f) :
    f.IsOrdered := by
  unfold read? at h
  split at h
  · cases h
    intro v hv
    cases hv
  · obtain ⟨v, hv, hf⟩ := Option.bind_eq_some_iff.mp h
    cases hf
    rintro _ ⟨rfl⟩
    exact FieldValue.isOrdered_of_read? hv

end SpanField

namespace Directive

/-! ### Directives -/

def targetSize (d : Directive) : Nat :=
  d.target.elim 0 (·.utf8ByteSize + 1)

instance : Ord Directive where
  compare :=
    compareLex (compareOn targetSize) <| compareLex (compareOn fun d ↦ d.span.isSome) <|
      compareLex (compareOn fun d ↦ d.field.isSome) <|
        compareLex (compareOn fun d ↦ d.target.getD "") <|
          compareLex (compareOn fun d ↦ d.span.getD "") (compareOn Directive.field)

instance : TransOrd Directive :=
  inferInstanceAs <| TransCmp <|
    compareLex (compareOn targetSize) <| compareLex (compareOn fun d ↦ d.span.isSome) <|
      compareLex (compareOn fun d ↦ d.field.isSome) <|
        compareLex (compareOn fun d ↦ d.target.getD "") <|
          compareLex (compareOn fun d ↦ d.span.getD "") (compareOn Directive.field)

def IsOrdered (d : Directive) : Prop :=
  ∀ f ∈ d.field, f.IsOrdered

theorem order_eq_compare {a b : Directive} (ha : a.IsOrdered) (hb : b.IsOrdered) :
    a.order b = compare a b := by
  obtain ⟨target, span, field, level⟩ := a
  obtain ⟨target', span', field', level'⟩ := b
  rw [order]
  cases field with
  | none => cases field' <;> rfl
  | some f =>
    cases field' with
    | none => rfl
    | some g =>
      dsimp only
      rw [SpanField.order_eq_compare (ha f rfl) (hb g rfl)]
      rfl

/-! ### Directives that are read -/

variable {whole cs : List Char} {r r' : Reader} {place : Nat}

/-- A step changes the field only where the field ends, and takes what is read of its text. -/
theorem field_of_step {c : Char} (h : step whole r place c = some r') :
    r'.done.field = r.done.field ∨ ∃ text, r'.done.field = SpanField.read? text := by
  obtain ⟨done, part⟩ := r
  cases part with
  | outset =>
    change (if _ then _ else if _ then _ else _) = _ at h
    split_ifs at h
    all_goals
      cases h
      exact .inl rfl
  | head first =>
    change (if _ then Option.bind _ _ else _) = _ at h
    split at h
    · obtain ⟨name, -, hr⟩ := Option.bind_eq_some_iff.mp h
      cases hr
      exact .inl rfl
    · cases h
      exact .inl rfl
  | span first =>
    change spanStep whole _ first place c = _ at h
    unfold spanStep at h
    split at h
    · obtain ⟨name, -, hr⟩ := Option.bind_eq_some_iff.mp h
      cases hr
      exact .inl rfl
    · obtain ⟨name, -, hr⟩ := Option.bind_eq_some_iff.mp h
      cases hr
      exact .inl rfl
    · cases h
      exact .inl rfl
  | field first =>
    change (if _ then Option.bind _ _ else _) = _ at h
    split at h
    · obtain ⟨text, -, hr⟩ := Option.bind_eq_some_iff.mp h
      by_cases hempty : text = []
      · rw [if_pos hempty] at hr
        cases hr
      rw [if_neg hempty] at hr
      obtain ⟨f, hf, hr⟩ := Option.bind_eq_some_iff.mp hr
      cases hr
      exact .inr ⟨text, hf.symm⟩
    · cases h
      exact .inl rfl
  | fieldEnd | spanEnd =>
    change (if _ then _ else _) = _ at h
    split_ifs at h
    cases h
    exact .inl rfl
  | level first =>
    cases h
    exact .inl rfl

theorem isOrdered_of_readFrom? (h : readFrom? whole r place cs = some r')
    (hr : r.done.IsOrdered) : r'.done.IsOrdered := by
  induction cs generalizing r place with
  | nil =>
    cases h
    exact hr
  | cons c cs ih =>
    obtain ⟨next, hnext, hrest⟩ := Option.bind_eq_some_iff.mp h
    refine ih hrest fun f hf ↦ ?_
    rcases field_of_step hnext with hsame | ⟨text, htext⟩
    · exact hr f (hsame ▸ hf)
    · exact SpanField.isOrdered_of_read? (htext ▸ hf)

theorem field_of_finish? {d : Directive} (h : finish? whole r = some d) :
    d.field = r.done.field := by
  obtain ⟨done, part⟩ := r
  cases part with
  | head first =>
    obtain ⟨text, -, hd⟩ := Option.bind_eq_some_iff.mp h
    split at hd
    all_goals
      cases hd
      rfl
  | level first =>
    obtain ⟨text, -, hd⟩ := Option.bind_eq_some_iff.mp h
    split_ifs at hd
    · cases hd
      rfl
    · obtain ⟨level, -, hd⟩ := Option.bind_eq_some_iff.mp hd
      cases hd
      rfl
  | spanEnd =>
    cases h
    rfl
  | outset | span | field | fieldEnd => cases h

/-- Every directive that is read has its place in the order. -/
theorem isOrdered_of_read? {d : Directive} (h : read? cs = some d) : d.IsOrdered := by
  obtain ⟨r, hr, hd⟩ := Option.bind_eq_some_iff.mp h
  have hstart : keepAll.IsOrdered := by
    intro f hf
    cases hf
  intro f hf
  exact isOrdered_of_readFrom? hr hstart f (field_of_finish? hd ▸ hf)

end Directive

end Criteria
