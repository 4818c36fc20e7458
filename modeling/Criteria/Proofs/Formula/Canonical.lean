import Criteria.Proofs.Formula.Read
import Criteria.Proofs.Literal

/-!
The written form of a formula. It is read as the lexemes of the formula, and no other lexemes that
spell the formula are fewer or lie deeper. So what a rule text says can be written under the same
limits, and reads back to the same formula.
-/

set_option autoImplicit false
set_option relaxedAutoImplicit false

namespace Criteria

open Grammar Token

def Condition.lexemes (c : Condition) : List Lexeme :=
  [⟨.identifier, c.field⟩, ⟨.comparison, c.comparison.symbol⟩, c.literal.lexeme]

/-- Whether some tokens spell the condition: its field is a name, and its literal can be said. -/
structure Condition.Sayable (c : Condition) : Prop where
  field : Lexeme.Whole ⟨.identifier, c.field⟩
  literal : c.literal.Sayable

namespace Formula

/-- The lexemes of the written form. -/
def lexemes : Formula → List Lexeme
  | .test c => c.lexemes
  | .join connective left right =>
    Lexeme.join connective left.lexemes
      (if right.isJoin then Lexeme.parens right.lexemes else right.lexemes)

/-- The lexemes of a formula as a phrase: a join as a condition stands in parentheses. -/
def phraseLexemes (f : Formula) : Phrase → List Lexeme
  | .expression => f.lexemes
  | .condition => if f.isJoin then Lexeme.parens f.lexemes else f.lexemes

theorem lexemes_join (connective : Connective) (left right : Formula) :
    (Formula.join connective left right).lexemes = Lexeme.join connective
      (left.phraseLexemes .expression) (right.phraseLexemes .condition) := rfl

/-- Whether some tokens spell every condition of the formula. -/
def Sayable (f : Formula) : Prop :=
  ∀ c ∈ f.conditions, c.Sayable

variable {f left right : Formula} {c : Condition} {connective : Connective}

theorem sayable_test : (Formula.test c).Sayable ↔ c.Sayable := by
  simp [Sayable, conditions]

theorem sayable_join :
    (Formula.join connective left right).Sayable ↔ left.Sayable ∧ right.Sayable := by
  simp only [Sayable, conditions, List.mem_append, or_imp, forall_and]

/-- Whole lexemes spell a formula whose conditions can be said. -/
theorem sayable_of_derives {p : Phrase} {ls : List Lexeme} (h : Derives p ls f)
    (hwhole : ∀ l ∈ ls, l.Whole) : f.Sayable := by
  induction h with
  | @comparison field sign literal op hfield _ _ hliteral =>
    have hname : Lexeme.Whole ⟨.identifier, field.text⟩ := by
      rw [← hfield]
      exact hwhole field (by simp)
    exact sayable_test.mpr
      ⟨hname, Literal.sayable_ofTokenText (hwhole literal (by simp)) hliteral⟩
  | group _ _ _ ih => exact ih fun l hl ↦ hwhole l (by simp [hl])
  | single _ ih => exact ih hwhole
  | chain _ _ _ _ ihfront ihlast =>
    exact sayable_join.mpr ⟨ihfront fun l hl ↦ hwhole l (by simp [hl]),
      ihlast fun l hl ↦ hwhole l (by simp [hl])⟩

/-! ### The written form -/

theorem whole_comparison (op : Comparison) : Lexeme.Whole ⟨.comparison, op.symbol⟩ := by
  cases op <;> rfl

theorem lexemes?_write_condition (h : c.Sayable) :
    lexemes? c.write.toList = some c.lexemes := by
  have hsides := lexemes?_spaced (lexemes?_of_whole h.field) (lexemes?_spaced
    (lexemes?_of_whole (whole_comparison c.comparison))
    (lexemes?_of_whole (Literal.whole_lexeme h.literal)))
  simpa [Condition.write, Condition.lexemes, Literal.lexeme] using hsides

/-- The written form is read as the lexemes of the formula. -/
theorem lexemes?_write (h : f.Sayable) : lexemes? f.write.toList = some f.lexemes := by
  induction f with
  | test c => exact lexemes?_write_condition (sayable_test.mp h)
  | join connective left right ihleft ihright =>
    obtain ⟨hleft, hright⟩ := sayable_join.mp h
    have hoperand : lexemes? (if right.isJoin then "(" ++ right.write ++ ")"
        else right.write).toList = some (right.phraseLexemes .condition) := by
      rw [phraseLexemes]
      by_cases hjoin : right.isJoin = true
      · rw [if_pos hjoin, if_pos hjoin]
        simpa using lexemes?_parens (ihright hright)
      · rw [if_neg hjoin, if_neg hjoin]
        exact ihright hright
    have hsides := lexemes?_spaced (ihleft hleft) (lexemes?_spaced
      (lexemes?_of_whole (whole_connective connective)) hoperand)
    rw [lexemes_join]
    simpa [write, phraseLexemes, Lexeme.join] using hsides

/-- The lexemes of a formula spell it. -/
theorem derives_phraseLexemes (h : f.Sayable) (p : Phrase) : Derives p (f.phraseLexemes p) f := by
  induction f generalizing p with
  | test c =>
    have hop : Comparison.ofSymbol? c.comparison.symbol = some c.comparison := by
      cases c.comparison <;> rfl
    have hspelt : Derives .condition c.lexemes
        (.test ⟨c.field, c.comparison, Literal.ofTokenText c.literal.lexeme.text⟩) :=
      .comparison rfl rfl hop c.literal.kind_lexeme
    have hliteral : Literal.ofTokenText c.literal.lexeme.text = c.literal :=
      Literal.ofTokenText_write (sayable_test.mp h).literal
    rw [hliteral] at hspelt
    cases p with
    | expression => exact .single hspelt
    | condition => exact hspelt
  | join connective left right ihleft ihright =>
    obtain ⟨hleft, hright⟩ := sayable_join.mp h
    have hchain : Derives .expression (join connective left right).lexemes
        (join connective left right) :=
      derives_join (ihleft hleft .expression) (ihright hright .condition)
    cases p with
    | expression => exact hchain
    | condition => exact .group rfl rfl hchain

/-! ### The least text -/

theorem length_parens (ls : List Lexeme) : (Lexeme.parens ls).length = ls.length + 2 := by
  simp [Lexeme.parens]

theorem nesting_parens (h : f.Sayable) :
    nesting (Lexeme.parens f.lexemes) = nesting f.lexemes + 1 :=
  nesting_group rfl rfl (derives_phraseLexemes h .expression)

/-- An expression is no longer and no deeper than the same formula as a condition. -/
theorem phraseLexemes_expression_le (h : f.Sayable) :
    (f.phraseLexemes .expression).length ≤ (f.phraseLexemes .condition).length ∧
      nesting (f.phraseLexemes .expression) ≤ nesting (f.phraseLexemes .condition) := by
  have hnesting := nesting_parens h
  simp only [phraseLexemes]
  by_cases hjoin : f.isJoin = true
  · rw [if_pos hjoin, length_parens, hnesting]
    exact ⟨Nat.le_add_right _ 2, Nat.le_succ _⟩
  · rw [if_neg hjoin]
    exact ⟨Nat.le_refl _, Nat.le_refl _⟩

/-- No lexemes that spell a formula are fewer than its own, or less deep. -/
theorem phraseLexemes_le {p : Phrase} {ls : List Lexeme} (h : Derives p ls f) (hf : f.Sayable) :
    (f.phraseLexemes p).length ≤ ls.length ∧ nesting (f.phraseLexemes p) ≤ nesting ls := by
  induction h with
  | @comparison field sign literal op hfield hsign _ hliteral =>
    have hflat : ∀ l ∈ Condition.lexemes ⟨field.text, op, Literal.ofTokenText literal.text⟩,
        l.kind ≠ .leftParen ∧ l.kind ≠ .rightParen :=
      flat_comparison rfl rfl (Literal.kind_lexeme _)
    exact ⟨Nat.le_refl 3, (deepest_of_flat hflat 0).trans_le (Nat.zero_le _)⟩
  | @group opener closer ls f hopener hcloser inner ih =>
    obtain ⟨hlength, hdepth⟩ := ih hf
    have hnesting := nesting_parens hf
    rw [nesting_group hopener hcloser inner]
    simp only [phraseLexemes, List.length_cons, List.length_append, List.length_nil]
      at hlength hdepth ⊢
    -- The written form keeps a group around a join only.
    by_cases hjoin : f.isJoin = true
    · rw [if_pos hjoin, length_parens, hnesting]
      omega
    · rw [if_neg hjoin]
      omega
  | single first ih =>
    obtain ⟨hlength, hdepth⟩ := ih hf
    obtain ⟨hlength', hdepth'⟩ := phraseLexemes_expression_le hf
    exact ⟨hlength'.trans hlength, hdepth'.trans hdepth⟩
  | @chain ls ms sign connective f g front hsign hconnective last ihfront ihlast =>
    obtain ⟨hleft, hright⟩ := sayable_join.mp hf
    obtain ⟨hlength, hdepth⟩ := ihfront hleft
    obtain ⟨hlength', hdepth'⟩ := ihlast hright
    rw [phraseLexemes, lexemes_join, Lexeme.join,
      nesting_chain (derives_phraseLexemes hleft .expression) rfl, nesting_chain front hsign]
    simp only [List.length_append, List.length_cons]
    omega

/-! ### Reading what was written -/

/-- A formula equals itself if its literals do. -/
theorem beq_self_of_literals (h : ∀ c ∈ f.conditions, (c.literal == c.literal) = true) :
    (f == f) = true := by
  induction f with
  | test c =>
    have hliteral := h c List.mem_cons_self
    change (c.field == c.field && (c.comparison == c.comparison && c.literal == c.literal)) = true
    simp [hliteral]
  | join connective left right ihleft ihright =>
    obtain ⟨hleft, hright⟩ := List.forall_mem_append.mp h
    change (connective == connective && (left == left && right == right)) = true
    simp [ihleft hleft, ihright hright]

/-- A formula whose numbers are finite equals itself. -/
theorem beq_self (h : f.Sayable) : (f == f) = true :=
  beq_self_of_literals fun c hc ↦ Literal.beq_self (h c hc).literal

/-- What a text spells can be said, and its own lexemes keep the limits that the text keeps. -/
theorem sayable_of_read {limits : Limits} {s : String} (h : read limits s = .ok f) :
    f.Sayable ∧ f.lexemes.length ≤ limits.maxTokens ∧ nesting f.lexemes ≤ limits.maxDepth := by
  obtain ⟨ls, hls, hlength, hdepth, hderives⟩ := read_eq_ok_iff.mp h
  have hf : f.Sayable := sayable_of_derives hderives (whole_of_mem_lexemes? hls)
  obtain ⟨hlength', hdepth'⟩ := phraseLexemes_le hderives hf
  exact ⟨hf, hlength'.trans hlength, hdepth'.trans hdepth⟩

theorem read_write {limits : Limits} {s : String} (h : read limits s = .ok f) :
    read limits f.write = .ok f := by
  obtain ⟨hf, hlength, hdepth⟩ := sayable_of_read h
  exact read_eq_ok_iff.mpr
    ⟨f.lexemes, lexemes?_write hf, hlength, hdepth, derives_phraseLexemes hf .expression⟩

/-- The written form of what a text spells, spells it again under the same limits, numbers being
equal as numbers are; so writing it once more changes nothing. -/
theorem canonical_round_trip (limits : Limits) (s : String) (f : Formula)
    (h : read limits s = .ok f) :
    read limits f.write = .ok f ∧ (f == f) = true ∧
      (read limits f.write).map write = .ok f.write := by
  have hread := read_write h
  refine ⟨hread, beq_self (sayable_of_read h).1, ?_⟩
  rw [hread]
  rfl

/-- Groups on the left go, a negative zero keeps its sign, and digits of another script are a text;
the limits leave no room for one more token or group. -/
theorem canonical_round_trip_of_groups :
    ∃ f, read ⟨17, 2⟩ "((a >= -0)) AND(b=='x' OR ORx<١٢)" = .ok f ∧
      f.write = "a >= -0 AND (b = 'x' OR ORx < '١٢')" ∧ read ⟨17, 2⟩ f.write = .ok f ∧
        (f == f) = true := by
  have hread := read_eq_ok_get ⟨17, 2⟩ "((a >= -0)) AND(b=='x' OR ORx<١٢)" (by decide +kernel)
  obtain ⟨hself, hbeq, -⟩ := canonical_round_trip _ _ _ hread
  exact ⟨_, hread, by decide +kernel, hself, hbeq⟩

end Formula

end Criteria
