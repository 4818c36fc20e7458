import Criteria.Proofs.Formula.Check
import Criteria.Proofs.Grammar.Descent

/-!
The bookkeeping of a whole descent. Every step takes the descent nearer to its end, by a measure of
the tokens that are left and of what is next, so that it ends, and it answers as the parser does. A
condition that is given back has moved the cursor and left the count of the groups as it was. And
what is accepted has as many tokens as its conditions and its parentheses ask for.
-/

set_option autoImplicit false
set_option relaxedAutoImplicit false

namespace Criteria.Grammar

open Formula

variable {maxDepth : Nat} {tokens : List Token} {s s' : Descent}

/-- How many steps may come before the next token is read, or the end. -/
def Control.rank : Control → Nat
  | .read .expression _ => 1
  | .read .condition _ => 0
  | .enter .. => 2
  | .give .condition .. => 1
  | .give .expression .. => 0

namespace Descent

/-! ### The way of a descent -/

/-- A bound on the steps from here after which the descent still goes on. -/
def stepsLeft (tokens : List Token) (s : Descent) : Nat :=
  3 * (tokens.length - s.pos) + s.control.rank

theorem Sound.stepsLeft_moves (h : Sound maxDepth tokens s) (hmoves : Moves maxDepth tokens s s') :
    s'.stepsLeft tokens < s.stepsLeft tokens := by
  have hpos := (h.moves hmoves).pos_le
  cases hmoves <;> simp only [stepsLeft, Control.rank] at hpos ⊢ <;> omega

/-- The cursor never moves back. -/
theorem Moves.pos_le (h : Moves maxDepth tokens s s') : s.pos ≤ s'.pos := by
  cases h <;> simp

/-- To begin a condition is to read a token. -/
theorem Moves.pos_lt {callers : Callers .condition} (h : Moves maxDepth tokens s s')
    (hread : s.control = .read .condition callers) : s.pos < s'.pos := by
  cases h <;> simp at hread ⊢

/-- What a run comes to from where the bookkeeping is right: to a later state where it is right and
where the same answer is to be expected, or to that answer. -/
theorem Sound.run_cases (h : Sound maxDepth tokens s) (n : Nat) :
    (∃ s', run maxDepth tokens n s = .next s' ∧ Sound maxDepth tokens s' ∧ s.pos ≤ s'.pos ∧
      s'.stepsLeft tokens + n ≤ s.stepsLeft tokens ∧
      expected maxDepth tokens s' = expected maxDepth tokens s) ∨
    run maxDepth tokens n s = .answer (expected maxDepth tokens s) := by
  -- By induction on the steps: the first keeps all that is claimed, and the rest go on from there.
  induction n generalizing s with
  | zero => exact Or.inl ⟨s, rfl, h, Nat.le_refl _, Nat.le_refl _, rfl⟩
  | succ n ih =>
    rcases h.proceeds with ⟨next, hstep, hmoves⟩ | hstep
    · have hleft := h.stepsLeft_moves hmoves
      have hexpected := h.expected_moves hmoves
      simp only [run, hstep]
      rcases ih (h.moves hmoves) with ⟨s', hrun, hsound, hpos, hleft', hexpected'⟩ | hrun
      · exact Or.inl ⟨s', hrun, hsound, hmoves.pos_le.trans hpos, by omega,
          hexpected'.trans hexpected⟩
      · exact Or.inr (hrun.trans (congrArg Outcome.answer hexpected))
    · simp only [run, hstep]
      exact Or.inr trivial

theorem Sound.run_next {n : Nat} (h : Sound maxDepth tokens s)
    (hrun : run maxDepth tokens n s = .next s') : Sound maxDepth tokens s' ∧ s.pos ≤ s'.pos := by
  rcases h.run_cases n with ⟨t, hnext, hsound, hpos, -⟩ | hanswer
  · obtain rfl : s' = t := Outcome.next.inj (hrun.symm.trans hnext)
    exact ⟨hsound, hpos⟩
  · rw [hrun] at hanswer
    cases hanswer

theorem Sound.run_ne_broken (h : Sound maxDepth tokens s) (n : Nat) :
    run maxDepth tokens n s ≠ .broken := by
  rcases h.run_cases n with ⟨s', hrun, -⟩ | hrun <;> simp [hrun]

theorem Sound.run_answer {n : Nat} (h : Sound maxDepth tokens s) (hn : s.stepsLeft tokens < n) :
    run maxDepth tokens n s = .answer (expected maxDepth tokens s) := by
  rcases h.run_cases n with ⟨s', -, -, -, hleft, -⟩ | hrun
  · omega
  · exact hrun

/-- A condition is given back, to the calls that asked for it, behind the place where it began and
with the groups counted as before. -/
theorem Sound.returns {m : Nat} {callers : Callers .condition} {f : Formula}
    (h : Sound maxDepth tokens s) (hread : s.control = .read .condition callers)
    (hrun : run maxDepth tokens m s = .next s') (hgive : s'.control = .give .condition callers f) :
    s.pos < s'.pos ∧ s'.depth = s.depth := by
  have hdepth : s'.depth = s.depth := by
    rw [(h.run_next hrun).1.depth_eq, h.depth_eq, hread, hgive]
    rfl
  -- The first step reads a token of the condition, and no later one moves the cursor back.
  cases m with
  | zero =>
    obtain rfl : s = s' := Outcome.next.inj hrun
    rw [hread] at hgive
    cases hgive
  | succ m =>
    rcases h.proceeds with ⟨next, hstep, hmoves⟩ | hstep
    · simp only [run, hstep] at hrun
      have hpos : next.pos ≤ s'.pos := ((h.moves hmoves).run_next hrun).2
      exact ⟨Nat.lt_of_lt_of_le (hmoves.pos_lt hread) hpos, hdepth⟩
    · simp only [run, hstep] at hrun
      cases hrun

/-! ### The answer -/

theorem endOffset_eq (hne : tokens ≠ []) : endOffset tokens = (tokens.getLast hne).stop := by
  rw [endOffset, List.getLast?_eq_some_getLast hne]
  rfl

/-- The descent answers, and as the parser does. -/
theorem outcome_eq (limits : Limits) (tokens : List Token) :
    outcome limits tokens = .answer (parse limits tokens) := by
  by_cases hnil : tokens = []
  · rw [hnil]
    rfl
  · have hempty : ¬tokens.isEmpty = true := by simpa using hnil
    by_cases hcount : limits.maxTokens < tokens.length
    · rw [outcome, if_neg hempty, if_pos hcount, parse_of_tooMany hnil hcount]
    · have hsteps : start.stepsLeft tokens < enoughSteps tokens := Nat.lt_add_one _
      rw [outcome, if_neg hempty, if_neg hcount, parse_eq_parseFrom hnil (Nat.not_lt.mp hcount),
        (sound_start _ _).run_answer hsteps, ← endOffset_eq hnil]
      rfl

end Descent

/-! ### The tokens of what is accepted -/

/-- A phrase has three lexemes for each condition, one between two conditions, and two for each
group. -/
theorem Derives.length_add_one {p : Phrase} {ls : List Lexeme} {f : Formula}
    (h : Derives p ls f) :
    ls.length + 1 = 4 * f.size + 2 * ls.countP (·.kind = .leftParen) := by
  induction h with
  | comparison hfield hsign _ hliteral =>
    rcases hliteral with hliteral | hliteral <;> simp [hfield, hsign, hliteral, size]
  | @group opener closer ls _ hopener hcloser _ ih =>
    have hcount : (opener :: (ls ++ [closer])).countP (·.kind = .leftParen) =
        ls.countP (·.kind = .leftParen) + 1 := by simp [hopener, hcloser]
    simp only [hcount, List.length_cons, List.length_append, List.length_nil]
    omega
  | single _ ih => exact ih
  | @chain ls ms sign _ _ _ _ hsign _ _ ihfront ihlast =>
    have hcount : (ls ++ sign :: ms).countP (·.kind = .leftParen) =
        ls.countP (·.kind = .leftParen) + ms.countP (·.kind = .leftParen) := by simp [hsign]
    simp only [hcount, List.length_append, List.length_cons, size]
    omega

open Descent

/-- An accepted list has four tokens for each condition, without the one that would follow the last,
and two for each group. -/
theorem length_of_parse {limits : Limits} {f : Formula} (h : parse limits tokens = .ok f) :
    tokens.length = 4 * f.size - 1 + 2 * count .leftParen tokens := by
  obtain ⟨-, -, hread⟩ := (parse_eq_ok_iff limits tokens f).mp h
  have hlength := hread.length_add_one
  have hsize := f.size_pos
  rw [List.length_map, List.countP_map] at hlength
  have hcount : tokens.countP ((fun l ↦ decide (l.kind = .leftParen)) ∘ Token.lexeme) =
      count .leftParen tokens := rfl
  omega

/-- The bookkeeping of the descent is safe, whatever the limits and the tokens. It is right in every
state, and no step breaks. A condition that is given back to the calls that asked for it has moved
the cursor on and left the groups as they were counted. The descent ends, after steps in proportion
to the tokens, with the answer of the parser. And an accepted list has the tokens that its
conditions and groups ask for, and a formula no deeper than it has conditions. -/
theorem descent_is_safe (limits : Limits) (tokens : List Token) :
    (∀ n s, run limits.maxDepth tokens n start = .next s →
      Sound limits.maxDepth tokens s ∧
      ∀ callers, s.control = .read .condition callers → ∀ m s' f,
        run limits.maxDepth tokens m s = .next s' → s'.control = .give .condition callers f →
          s.pos < s'.pos ∧ s'.depth = s.depth) ∧
    (∀ n, run limits.maxDepth tokens n start ≠ .broken) ∧
    (∃ answer, ∀ n, enoughSteps tokens ≤ n →
      run limits.maxDepth tokens n start = .answer answer) ∧
    outcome limits tokens = .answer (parse limits tokens) ∧
    ∀ f, parse limits tokens = .ok f →
      tokens.length = 4 * f.size - 1 + 2 * count .leftParen tokens ∧ f.depth ≤ f.size := by
  have hstart : Sound limits.maxDepth tokens start := sound_start limits.maxDepth tokens
  refine ⟨fun n s hrun ↦ ?_, hstart.run_ne_broken, ⟨_, fun n hn ↦ hstart.run_answer hn⟩,
    outcome_eq limits tokens, fun f hparse ↦ ⟨length_of_parse hparse, f.depth_le_size⟩⟩
  have hsound : Sound limits.maxDepth tokens s := (hstart.run_next hrun).1
  exact ⟨hsound, fun callers hread m s' f hreturn hgive ↦ hsound.returns hread hreturn hgive⟩

end Criteria.Grammar
