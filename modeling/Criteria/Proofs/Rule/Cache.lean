import Criteria.Compiled
import Criteria.Proofs.Formula.Check

/-!
Rules that carry a formula. It is taken as it comes, once it passes the check, so it decides even
where the text says something else. A formula that was read from the text decides as the text
does, except that the text may now be over the limits. And a formula that was taken can be written
as a rule text exactly if its fields are names, its numbers are finite and the written form keeps
the limits.
-/

set_option autoImplicit false
set_option relaxedAutoImplicit false

namespace Criteria

/-- The rule without the formula that it carries. -/
def Rule.uncached (r : Rule) : Rule :=
  { r with formula := none }

namespace Compiler

variable {k k' : Compiler} {r : Rule} {f : Formula} {c : Compiled}

/-- What is made of a rule that is accepted with a formula, and the compiler after it. -/
def accepted (k : Compiler) (r : Rule) (f : Formula) : Compiled × Compiler :=
  (⟨r.uncached, f, k.version + 1⟩, { k with version := k.version + 1 })

theorem compile_eq_map (k : Compiler) (r : Rule) :
    k.compile r = (r.resolve k.limits).map (k.accepted r) := by
  unfold compile
  cases r.resolve k.limits <;> rfl

theorem compile_of_resolve (h : r.resolve k.limits = .ok f) :
    k.compile r = .ok (k.accepted r f) := by
  rw [compile_eq_map, h]
  rfl

theorem compile_of_resolve_error {fault : Fault} (h : r.resolve k.limits = .error fault) :
    k.compile r = .error fault := by
  rw [compile_eq_map, h]
  rfl

theorem compile_of_cached (hcache : r.formula = some f) (hcheck : f.check k.limits = .ok ()) :
    k.compile r = .ok (k.accepted r f) := by
  refine compile_of_resolve ?_
  rw [Rule.resolve, hcache]
  simp only [hcheck]

/-- A formula that a rule carries is taken for what it is, whatever the text says. -/
theorem check_of_compile_cached (hcache : r.formula = some f) (h : k.compile r = .ok (c, k')) :
    f.check k.limits = .ok () ∧ c.formula = f := by
  cases hcheck : f.check k.limits with
  | error fault =>
    rw [compile_eq_map, Rule.resolve, hcache] at h
    simp [hcheck, Except.map] at h
  | ok u =>
    rw [compile_of_cached hcache hcheck] at h
    obtain ⟨rfl, -⟩ : _ = c ∧ _ = k' := by simpa [accepted] using h
    exact ⟨rfl, rfl⟩

theorem compile_uncached (k : Compiler) (r : Rule) :
    k.compile r.uncached = (Formula.read k.limits r.text).map (k.accepted r) := by
  rw [compile_eq_map]
  rfl

theorem read_of_compile_uncached (h : k.compile r.uncached = .ok (c, k')) :
    Formula.read k.limits r.text = .ok c.formula := by
  rw [compile_uncached] at h
  cases hread : Formula.read k.limits r.text with
  | error fault =>
    rw [hread] at h
    simp [Except.map] at h
  | ok f =>
    rw [hread] at h
    obtain ⟨rfl, -⟩ : _ = c ∧ _ = k' := by simpa [Except.map, accepted] using h
    rfl

/-! ### Formulas and the texts of their rules -/

/-- A rule that carries the formula of another text. -/
def drifted : Rule :=
  ⟨"drifted", "age = 'x'", "", some (.test ⟨"level", .equal, .text "x"⟩), ⟨0, 0⟩, ⟨0, 0⟩⟩

/-- A formula need not say what the text of its rule says: the rule is accepted all the same, and
then decides by the formula. -/
theorem cached_formula_may_differ :
    ¬∀ (k k' : Compiler) (r : Rule) (c : Compiled), r.formula.isSome = true →
      k.compile r = .ok (c, k') →
        ∃ d l, k.compile r.uncached = .ok (d, l) ∧ (d.formula == c.formula) = true ∧
          ∀ name, name ∈ d.fieldNames ↔ name ∈ c.fieldNames := by
  intro h
  obtain ⟨d, l, hreparsed, -, hfields⟩ := h (.ofLimits .standard) ⟨.standard, 1⟩ drifted
    ⟨drifted.uncached, .test ⟨"level", .equal, .text "x"⟩, 1⟩ rfl rfl
  have hread := read_of_compile_uncached hreparsed
  have hnames : (Formula.read .standard drifted.text).toOption.map Formula.fieldNames =
      some ["age"] := by
    decide +kernel
  rw [show Formula.read .standard drifted.text = .ok d.formula from hread] at hnames
  have hage : d.fieldNames = ["age"] := Option.some.inj hnames
  have hlevel := (hfields "age").mp (by simp [hage])
  exact absurd hlevel (by decide)

/-- A formula that was read from the text of its rule, under whatever limits: either the text is
now refused for its size, or the rule is accepted with its formula and without it, and the two
results are the same. They are, if the limits are no tighter than they were. -/
theorem cached_formula_is_reparsed (k : Compiler) (r : Rule) (f : Formula) (origin : Limits)
    (hcache : r.formula = some f) (horigin : Formula.read origin r.text = .ok f) :
    ((∃ fault, k.compile r.uncached = .error (.grammatical fault) ∧
        Grammar.isLimit fault.cause = true) ∨
      ∃ c k', k.compile r = .ok (c, k') ∧ k.compile r.uncached = .ok (c, k')) ∧
    (origin.maxTokens ≤ k.limits.maxTokens → origin.maxDepth ≤ k.limits.maxDepth →
      ∃ c k', k.compile r = .ok (c, k') ∧ k.compile r.uncached = .ok (c, k')) := by
  obtain ⟨ls, hls, hlength, hdepth, hderives⟩ := Formula.read_eq_ok_iff.mp horigin
  have hsame (hlength' : ls.length ≤ k.limits.maxTokens)
      (hdepth' : Grammar.nesting ls ≤ k.limits.maxDepth) :
      ∃ c k', k.compile r = .ok (c, k') ∧ k.compile r.uncached = .ok (c, k') := by
    have hread : Formula.read k.limits r.text = .ok f :=
      Formula.read_eq_ok_iff.mpr ⟨ls, hls, hlength', hdepth', hderives⟩
    refine ⟨_, _, compile_of_cached hcache (Formula.check_of_read hread le_rfl), ?_⟩
    rw [compile_uncached, hread]
    rfl
  constructor
  · by_cases hfits : ls.length ≤ k.limits.maxTokens ∧ Grammar.nesting ls ≤ k.limits.maxDepth
    · exact Or.inr (hsame hfits.1 hfits.2)
    · have hexceeds : k.limits.maxTokens < ls.length ∨ k.limits.maxDepth < Grammar.nesting ls := by
        omega
      obtain ⟨fault, hread, hlimit⟩ := Formula.read_of_exceeds hls hderives hexceeds
      refine Or.inl ⟨fault, ?_, hlimit⟩
      rw [compile_uncached, hread]
      rfl
  · intro htokens hgroups
    exact hsame (hlength.trans htokens) (hdepth.trans hgroups)

/-- A rule with its own formula is accepted as without it, by a compiler that allows more than the
one that read it. -/
theorem cached_formula_is_reparsed_with_room :
    ∃ f, Formula.read ⟨9, 1⟩ "(a > 1) OR b = '1'" = .ok f ∧
      ∃ c k', (⟨⟨12, 2⟩, 4⟩ : Compiler).compile
          ⟨"own", "(a > 1) OR b = '1'", "", some f, ⟨0, 0⟩, ⟨0, 0⟩⟩ = .ok (c, k') ∧
        (⟨⟨12, 2⟩, 4⟩ : Compiler).compile
          ⟨"own", "(a > 1) OR b = '1'", "", none, ⟨0, 0⟩, ⟨0, 0⟩⟩ = .ok (c, k') := by
  have hread := Formula.read_eq_ok_get ⟨9, 1⟩ "(a > 1) OR b = '1'" (by decide +kernel)
  obtain ⟨-, hroom⟩ := cached_formula_is_reparsed ⟨⟨12, 2⟩, 4⟩
    ⟨"own", "(a > 1) OR b = '1'", "", some _, ⟨0, 0⟩, ⟨0, 0⟩⟩ _ ⟨9, 1⟩ rfl hread
  exact ⟨_, hread, hroom (by decide) (by decide)⟩

/-! ### Formulas that can be written -/

/-- A rule that carries a condition on a field whose name is two words. -/
def unwritable : Rule :=
  ⟨"unwritable", "age = 'x'", "", some (.test ⟨"a b", .equal, .text "x"⟩), ⟨0, 0⟩, ⟨0, 0⟩⟩

/-- The written form of a formula that was taken need not be a rule text. -/
theorem cached_formula_may_be_unwritable :
    ¬∀ (k k' : Compiler) (r : Rule) (c : Compiled), r.formula.isSome = true →
      k.compile r = .ok (c, k') →
        ∃ f, Formula.read k.limits c.formula.write = .ok f ∧ (f == c.formula) = true := by
  intro h
  obtain ⟨f, hread, -⟩ := h (.ofLimits .standard) ⟨.standard, 1⟩ unwritable
    ⟨unwritable.uncached, .test ⟨"a b", .equal, .text "x"⟩, 1⟩ rfl rfl
  have hnone : (Formula.read .standard "a b = 'x'").toOption.isNone = true := by
    decide +kernel
  rw [show Formula.read .standard "a b = 'x'" = .ok f from hread] at hnone
  exact Bool.false_ne_true hnone

/-- The formula that a rule carries is taken as it is, and its written form is read back under the
same limits exactly if its fields are names, its numbers are finite, and the written form has no
more tokens and no deeper groups than the limits allow. -/
theorem cached_formula_writable_iff (k k' : Compiler) (r : Rule) (c : Compiled) (f : Formula)
    (hcache : r.formula = some f) (hcompile : k.compile r = .ok (c, k')) :
    c.formula = f ∧
      (Formula.read k.limits c.formula.write = .ok c.formula ↔
        (∀ d ∈ c.formula.conditions, Token.IsName d.field.toList ∧ d.literal.IsFinite) ∧
          c.formula.Fits k.limits) := by
  obtain ⟨hcheck, rfl⟩ := check_of_compile_cached hcache hcompile
  refine ⟨rfl, ?_⟩
  rw [Formula.read_write_iff, Formula.sayable_iff_of_check hcheck]

/-- A formula whose written form has thirteen tokens and one group. -/
def grouped : Formula :=
  .join .and (.test ⟨"a", .equal, .number 0.5⟩)
    (.join .or (.test ⟨"ORx", .different, .text "1"⟩) (.test ⟨"b2", .equal, .text "("⟩))

/-- All tokens and groups that the limits allow, and no more. -/
theorem cached_formula_writable_at_limits :
    ∃ c k', (ofLimits ⟨13, 1⟩).compile ⟨"kept", "", "", some grouped, ⟨0, 0⟩, ⟨0, 0⟩⟩ =
        .ok (c, k') ∧
      Formula.read ⟨13, 1⟩ c.formula.write = .ok c.formula := by
  have hcompile : (ofLimits ⟨13, 1⟩).compile ⟨"kept", "", "", some grouped, ⟨0, 0⟩, ⟨0, 0⟩⟩ =
      .ok (⟨⟨"kept", "", "", none, ⟨0, 0⟩, ⟨0, 0⟩⟩, grouped, 1⟩, ⟨⟨13, 1⟩, 1⟩) := rfl
  obtain ⟨-, hwritable⟩ := cached_formula_writable_iff _ _ _ _ grouped rfl hcompile
  exact ⟨_, _, hcompile, hwritable.mpr ⟨by decide +kernel, by decide⟩⟩

end Compiler

end Criteria
