import Criteria.Proofs.Formula.Check

/-!
Which formulas can be written. The written form of a formula is read back exactly if its fields are
names, its texts have no quote, its numbers are finite, and its size and the joins on its right
sides keep the limits. No other formula has a written form that happens to be read as it.
-/

set_option autoImplicit false
set_option relaxedAutoImplicit false

namespace Criteria

namespace Condition

variable {c d : Condition}

/-- A condition can be said if its field is scanned as that one name, and its literal is a text
without a quote or a finite number. -/
theorem sayable_iff :
    c.Sayable ↔ Token.scan c.field = .ok [⟨.identifier, c.field, 0⟩] ∧
      (∀ s, c.literal = .text s → '\'' ∉ s.toList) ∧
        ∀ x, c.literal = .number x → x.isFinite = true := by
  have hliteral : c.literal.Sayable ↔ (∀ s, c.literal = .text s → '\'' ∉ s.toList) ∧
      ∀ x, c.literal = .number x → x.isFinite = true := by
    cases c.literal with
    | number x => simp [Literal.Sayable]
    | text s => simp [Literal.Sayable]
  rw [Token.scan_eq_ok_iff_whole (l := ⟨.identifier, c.field⟩), ← hliteral]
  exact ⟨fun h ↦ ⟨h.field, h.literal⟩, fun h ↦ ⟨h.1, h.2⟩⟩

theorem Sayable.of_beq (hc : c.Sayable) (h : (c == d) = true) : d.Sayable := by
  obtain ⟨field, op, literal⟩ := c
  obtain ⟨field', op', literal'⟩ := d
  change (field == field' && (op == op' && literal == literal')) = true at h
  simp only [Bool.and_eq_true, beq_iff_eq] at h
  obtain ⟨rfl, -, hliteral⟩ := h
  exact ⟨hc.field, hc.literal.of_beq hliteral⟩

end Condition

namespace Formula

/-! ### Joins on the right -/

/-- How many joins are right operands. -/
def rightJoins : Formula → Nat
  | .test _ => 0
  | .join _ left right =>
    left.rightJoins + right.rightJoins + (if right.isJoin then 1 else 0)

/-- The ways from the whole formula down to its conditions. Each step tells whether it leads to a
join that is a right operand. -/
def branches : Formula → List (List Bool)
  | .test _ => [[]]
  | .join _ left right =>
    left.branches.map (false :: ·) ++ right.branches.map (right.isJoin :: ·)

theorem tokenCount_add_one (f : Formula) : f.tokenCount + 1 = 4 * f.size + 2 * f.rightJoins := by
  induction f with
  | test c => rfl
  | join connective left right ihleft ihright =>
    simp only [tokenCount, size, rightJoins]
    split <;> omega

/-- The groups of the written form lie as deep as there are joins on the right along one branch. -/
theorem groupDepth_add_le_iff {f : Formula} {k n : Nat} :
    f.groupDepth + k ≤ n ↔ ∀ b ∈ f.branches, b.count true + k ≤ n := by
  induction f generalizing k with
  | test c => simp [groupDepth, branches]
  | join connective left right ihleft ihright =>
    have hleft : left.groupDepth + k ≤ n ↔
        ∀ b ∈ left.branches, (false :: b).count true + k ≤ n := by
      simpa only [List.count_cons_of_ne Bool.false_ne_true] using ihleft
    have hright : (if right.isJoin then right.groupDepth + 1 else right.groupDepth) + k ≤ n ↔
        ∀ b ∈ right.branches, (right.isJoin :: b).count true + k ≤ n := by
      cases right.isJoin with
      | false =>
        simpa only [Bool.false_eq_true, if_false, List.count_cons_of_ne Bool.false_ne_true]
          using ihright
      | true =>
        simpa only [if_true, List.count_cons_self, Nat.add_assoc, Nat.add_comm 1 k]
          using ihright (k := k + 1)
    rw [groupDepth, branches, ← Nat.add_max_add_right, Nat.max_le, List.forall_mem_append,
      List.forall_mem_map, List.forall_mem_map, hleft, hright]

theorem groupDepth_le_iff {f : Formula} {n : Nat} :
    f.groupDepth ≤ n ↔ ∀ b ∈ f.branches, b.count true ≤ n :=
  groupDepth_add_le_iff (k := 0)

/-! ### Formulas that are equal as numbers are -/

/-- What holds of equal conditions, and of joins of operands it holds of, holds of equal
formulas. -/
theorem beq_induction {motive : Formula → Formula → Prop}
    (test : ∀ c d, (c == d) = true → motive (.test c) (.test d))
    (join : ∀ connective left right left' right', motive left left' → motive right right' →
      motive (.join connective left right) (.join connective left' right'))
    {f g : Formula} (h : (f == g) = true) : motive f g := by
  induction f generalizing g with
  | test c =>
    cases g with
    | test d => exact test c d h
    | join _ _ _ => exact absurd h Bool.false_ne_true
  | join connective left right ihleft ihright =>
    cases g with
    | test d => exact absurd h Bool.false_ne_true
    | join connective' left' right' =>
      change (connective == connective' && (left == left' && right == right')) = true at h
      simp only [Bool.and_eq_true, beq_iff_eq] at h
      obtain ⟨rfl, hleft, hright⟩ := h
      exact join connective left right left' right' (ihleft hleft) (ihright hright)

variable {f g : Formula}

theorem Sayable.of_beq (hf : f.Sayable) (h : (f == g) = true) : g.Sayable := by
  refine beq_induction (motive := fun f g ↦ f.Sayable → g.Sayable) ?_ ?_ h hf
  · intro c d hcd hc
    exact sayable_test.mpr ((sayable_test.mp hc).of_beq hcd)
  · intro connective left right left' right' ihleft ihright hjoin
    obtain ⟨hleft, hright⟩ := sayable_join.mp hjoin
    exact sayable_join.mpr ⟨ihleft hleft, ihright hright⟩

/-- The written forms of equal formulas have equally many tokens, and groups equally deep. -/
theorem shape_eq_of_beq (h : (f == g) = true) :
    f.isJoin = g.isJoin ∧ f.tokenCount = g.tokenCount ∧ f.groupDepth = g.groupDepth := by
  refine beq_induction (motive := fun f g ↦ f.isJoin = g.isJoin ∧ f.tokenCount = g.tokenCount ∧
    f.groupDepth = g.groupDepth) ?_ ?_ h
  · intro c d _
    exact ⟨rfl, rfl, rfl⟩
  · rintro connective left right left' right' ⟨-, hcount, hdepth⟩ ⟨hjoin, hcount', hdepth'⟩
    refine ⟨rfl, ?_, ?_⟩
    · rw [tokenCount, tokenCount, hcount, hjoin, hcount']
    · rw [groupDepth, groupDepth, hdepth, hjoin, hdepth']

theorem Fits.of_beq {limits : Limits} (hf : f.Fits limits) (h : (f == g) = true) :
    g.Fits limits := by
  obtain ⟨-, hcount, hdepth⟩ := shape_eq_of_beq h
  rwa [Fits, ← hcount, ← hdepth]

/-! ### What can be written -/

/-- What a formula takes to be read back from its written form: fields that are scanned as one
name, texts without a quote, finite numbers, and limits that allow its tokens and, along each
branch, its joins on the right. -/
structure Expressible (limits : Limits) (f : Formula) : Prop where
  fields : ∀ c ∈ f.conditions, Token.scan c.field = .ok [⟨.identifier, c.field, 0⟩]
  texts : ∀ c ∈ f.conditions, ∀ s, c.literal = .text s → '\'' ∉ s.toList
  numbers : ∀ c ∈ f.conditions, ∀ x, c.literal = .number x → x.isFinite = true
  tokens : 4 * f.size - 1 + 2 * f.rightJoins ≤ limits.maxTokens
  depth : ∀ b ∈ f.branches, b.count true ≤ limits.maxDepth

theorem expressible_iff {limits : Limits} :
    f.Expressible limits ↔ f.Sayable ∧ f.Fits limits := by
  have hcount : 4 * f.size - 1 + 2 * f.rightJoins = f.tokenCount := by
    have hsize := f.size_pos
    have htokens := f.tokenCount_add_one
    omega
  simp only [Sayable, Condition.sayable_iff, imp_and, forall_and, Fits, groupDepth_le_iff, ← hcount]
  constructor
  · rintro ⟨hfields, htexts, hnumbers, htokens, hdepth⟩
    exact ⟨⟨hfields, htexts, hnumbers⟩, htokens, hdepth⟩
  · rintro ⟨⟨hfields, htexts, hnumbers⟩, htokens, hdepth⟩
    exact ⟨hfields, htexts, hnumbers, htokens, hdepth⟩

/-- The written form of a formula is read as that formula exactly if the formula is expressible;
and so it is as a formula that equals it, numbers being equal as numbers are. -/
theorem read_write_iff_expressible (limits : Limits) (f : Formula) :
    (read limits f.write = .ok f ↔ f.Expressible limits) ∧
      ((∃ g, read limits f.write = .ok g ∧ (g == f) = true) ↔ f.Expressible limits) := by
  rw [expressible_iff]
  refine ⟨read_write_iff, ?_, ?_⟩
  · rintro ⟨g, hread, hbeq⟩
    obtain ⟨hg, hfits⟩ := fits_of_read hread
    exact ⟨hg.of_beq hbeq, hfits.of_beq hbeq⟩
  · intro h
    exact ⟨f, read_write_iff.mpr h, beq_self h.1⟩

/-- A text with quotes may be written as a longer rule. -/
example :
    (read ⟨7, 0⟩ (test ⟨"a", .equal, .text "x' AND b = 'y"⟩).write).toOption.map size = some 2 := by
  decide +kernel

end Formula

end Criteria
