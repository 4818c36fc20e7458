import Criteria.Proofs.Formula.Fields
import Criteria.Proofs.Formula.Matched
import Criteria.Proofs.Rule.Cache

/-!
The fields that a rule sees. What it makes of a record hangs on the fields with its names, whatever
else the record holds, and these names are the identifiers of its text, where it was read from one.
-/

set_option autoImplicit false
set_option relaxedAutoImplicit false

namespace Criteria

/-- The texts of the identifiers, from left to right. -/
def Lexeme.identifiers (ls : List Lexeme) : List String :=
  (ls.filter fun l ↦ l.kind = .identifier).map Lexeme.text

namespace Formula

variable {limits : Limits} {s : String} {f : Formula} {r r' : Record}

/-- Records with the same fields under the names of a formula are explained alike. -/
theorem explain_congr_of_fieldNames (h : ∀ name ∈ f.fieldNames, r.get? name = r'.get? name)
    (tracing : Bool) : f.explain tracing r = f.explain tracing r' := by
  refine explain_congr (fun c hc ↦ ?_) tracing
  have hfield := h c.field (field_mem_fieldNames hc)
  exact ⟨by rw [Condition.holds, Condition.holds, hfield], by rw [hfield]⟩

/-- The identifiers of a phrase are the fields of its conditions. -/
theorem identifiers_of_derives {p : Grammar.Phrase} {ls : List Lexeme}
    (h : Grammar.Derives p ls f) : Lexeme.identifiers ls = f.conditions.map Condition.field := by
  induction h with
  | comparison hfield hsign _ hliteral =>
    rcases hliteral with hliteral | hliteral <;>
      simp [Lexeme.identifiers, conditions, hfield, hsign, hliteral]
  | group hopener hcloser _ ih => simpa [Lexeme.identifiers, hopener, hcloser] using ih
  | single _ ih => exact ih
  | chain _ hsign _ _ ihfront ihlast =>
    rw [conditions, List.map_append, ← ihfront, ← ihlast]
    simp [Lexeme.identifiers, hsign]

/-- The names of a formula that was read are the identifiers of its text. -/
theorem fieldNames_of_read (h : read limits s = .ok f) :
    ∃ tokens, Token.scan s = .ok tokens ∧
      ∀ name, name ∈ f.fieldNames ↔ ∃ t ∈ tokens, t.kind = .identifier ∧ t.text = name := by
  obtain ⟨ls, hls, -, -, hderives⟩ := read_eq_ok_iff.mp h
  obtain ⟨tokens, hscan, rfl⟩ := Token.lexemes?_eq_some_iff.mp hls
  refine ⟨tokens, hscan, fun name ↦ ?_⟩
  rw [mem_fieldNames, mentions_iff, ← identifiers_of_derives hderives]
  simp [Lexeme.identifiers, Token.lexeme, and_assoc]

end Formula

namespace Compiler

/-- A rule sees the fields with its names only. Two records that have the same under each of these
names, a value or none, come out alike, the decision, its grounds and its trace, whatever they hold
besides. Each name is listed once, and if the rule was made ready from its text, the names are the
identifiers among the tokens of that text. -/
theorem sees_named_fields_only (k k' : Compiler) (rule : Rule) (c : Compiled)
    (h : k.compile rule = .ok (c, k')) :
    (∀ r r' : Record, (∀ name ∈ c.fieldNames, r.get? name = r'.get? name) →
      ∀ tracing, c.explain tracing r = c.explain tracing r') ∧
    c.fieldNames.Nodup ∧
    (rule.formula = none → ∃ tokens, Token.scan rule.text = .ok tokens ∧
      ∀ name, name ∈ c.fieldNames ↔ ∃ t ∈ tokens, t.kind = .identifier ∧ t.text = name) := by
  refine ⟨fun r r' hsame ↦ Formula.explain_congr_of_fieldNames hsame,
    Formula.nodup_fieldNames c.formula, fun hplain ↦ ?_⟩
  have hself : rule.uncached = rule := by rw [Rule.uncached, ← hplain]
  rw [← hself] at h
  exact Formula.fieldNames_of_read (read_of_compile_uncached h)

/-- A rule that names one field twice, and has words in a text. -/
def seniority : Rule :=
  ⟨"seniority", "age > 30 AND (team = 'vip OR age' OR age < 60)", "", none, ⟨0, 0⟩, ⟨0, 0⟩⟩

/-- Two records that have the same age and no team, and nothing else in common. -/
theorem sees_named_fields_only_of_seniority :
    ∃ c k', (ofLimits ⟨13, 1⟩).compile seniority = .ok (c, k') ∧ c.fieldNames = ["age", "team"] ∧
      c.explain true ⟨[("vip", .flag true), ("age", .text "35")]⟩ =
        c.explain true ⟨[("age", .text "35"), ("OR", .null)]⟩ ∧
      ∃ tokens, Token.scan seniority.text = .ok tokens ∧
        ∃ t ∈ tokens, t.kind = .identifier ∧ t.text = "team" := by
  obtain ⟨f, hread⟩ : ∃ f, Formula.read ⟨13, 1⟩ seniority.text = .ok f :=
    ⟨_, Formula.read_eq_ok_get _ _ (by decide +kernel)⟩
  have hcompile : (ofLimits ⟨13, 1⟩).compile seniority =
      .ok ((ofLimits ⟨13, 1⟩).accepted seniority f) := by
    rw [show seniority = seniority.uncached from rfl, compile_uncached]
    exact congrArg _ hread
  have hnames : (Formula.read ⟨13, 1⟩ seniority.text).toOption.map Formula.fieldNames =
      some ["age", "team"] := by
    decide +kernel
  rw [hread] at hnames
  have hfields : f.fieldNames = ["age", "team"] := Option.some.inj hnames
  have hmem (name : String) : name ∈ f.fieldNames ↔ name = "age" ∨ name = "team" := by
    simp [hfields]
  obtain ⟨hsees, -, hidentifiers⟩ := sees_named_fields_only _ _ seniority _ hcompile
  obtain ⟨tokens, hscan, hnamed⟩ := hidentifiers rfl
  refine ⟨_, _, hcompile, hfields, hsees _ _ (fun name hname ↦ ?_) true, tokens, hscan,
    (hnamed "team").mp ((hmem "team").mpr (Or.inr rfl))⟩
  obtain rfl | rfl := (hmem name).mp hname
  · rfl
  · rfl

end Compiler

end Criteria
