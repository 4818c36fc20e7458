import Criteria.Formula.Parse

/-!
The grammar of rule texts, over the kinds and texts of tokens alone. A chain of conditions is read
from left to right whatever its connectives, and a group says what the expression inside it says.
`Derives` tells which formulas a list of lexemes spells, and `nesting` how deep its groups lie.
-/

set_option autoImplicit false
set_option relaxedAutoImplicit false

namespace Criteria

/-- A token apart from its place. -/
structure Lexeme where
  kind : Token.Kind
  text : String
  deriving DecidableEq, Repr

def Token.lexeme (t : Token) : Lexeme :=
  ⟨t.kind, t.text⟩

namespace Grammar

/-- The two phrases of the grammar. -/
inductive Phrase where
  | expression
  | condition
  deriving DecidableEq, Repr

/-- The lexemes spell the formula as a phrase. An expression is a condition, or a shorter
expression, a connective and one more condition; a condition is a field, a comparison and a literal,
or an expression between parentheses. -/
inductive Derives : Phrase → List Lexeme → Formula → Prop
  | comparison {field sign literal : Lexeme} {op : Comparison}
      (hfield : field.kind = .identifier) (hsign : sign.kind = .comparison)
      (hop : Comparison.ofSymbol? sign.text = some op)
      (hliteral : literal.kind = .text ∨ literal.kind = .number) :
      Derives .condition [field, sign, literal]
        (.test ⟨field.text, op, Literal.ofTokenText literal.text⟩)
  | group {opener closer : Lexeme} {ls : List Lexeme} {f : Formula}
      (hopener : opener.kind = .leftParen) (hcloser : closer.kind = .rightParen)
      (inner : Derives .expression ls f) :
      Derives .condition (opener :: (ls ++ [closer])) f
  | single {ls : List Lexeme} {f : Formula} (first : Derives .condition ls f) :
      Derives .expression ls f
  | chain {ls ms : List Lexeme} {sign : Lexeme} {connective : Connective} {f g : Formula}
      (front : Derives .expression ls f) (hsign : sign.kind = .connective)
      (hconnective : Connective.ofSymbol? sign.text = some connective)
      (last : Derives .condition ms g) :
      Derives .expression (ls ++ sign :: ms) (.join connective f g)

/-- How many groups are open after a lexeme, when `depth` are open before it. -/
def depthAfter (depth : Nat) (l : Lexeme) : Nat :=
  match l.kind with
  | .leftParen => depth + 1
  | .rightParen => depth - 1
  | _ => depth

/-- The largest number of groups that are open at once, when `depth` are open at the start. -/
def deepest (depth : Nat) : List Lexeme → Nat
  | [] => depth
  | l :: ls => max depth (deepest (depthAfter depth l) ls)

/-- The deepest nesting of parentheses. -/
def nesting (ls : List Lexeme) : Nat :=
  deepest 0 ls

theorem depthAfter_of_leftParen {l : Lexeme} (h : l.kind = .leftParen) (depth : Nat) :
    depthAfter depth l = depth + 1 := by
  rw [depthAfter, h]

theorem depthAfter_of_rightParen {l : Lexeme} (h : l.kind = .rightParen) (depth : Nat) :
    depthAfter depth l = depth - 1 := by
  rw [depthAfter, h]

theorem depthAfter_of_ne {l : Lexeme} (hleft : l.kind ≠ .leftParen) (hright : l.kind ≠ .rightParen)
    (depth : Nat) : depthAfter depth l = depth := by
  unfold depthAfter
  split
  · contradiction
  · contradiction
  · rfl

theorem le_deepest (depth : Nat) (ls : List Lexeme) : depth ≤ deepest depth ls := by
  cases ls with
  | nil => exact Nat.le_refl depth
  | cons l ls => exact Nat.le_max_left _ _

theorem deepest_append (depth : Nat) (ls ms : List Lexeme) :
    deepest depth (ls ++ ms) =
      max (deepest depth ls) (deepest (ls.foldl depthAfter depth) ms) := by
  induction ls generalizing depth with
  | nil =>
    have h := le_deepest depth ms
    simp only [List.nil_append, List.foldl_nil, deepest]
    omega
  | cons l ls ih =>
    simp only [List.cons_append, List.foldl_cons, deepest, ih]
    omega

/-- Lexemes without parentheses leave the depth as it is. -/
theorem foldl_depthAfter_of_flat {ls : List Lexeme}
    (h : ∀ l ∈ ls, l.kind ≠ .leftParen ∧ l.kind ≠ .rightParen) (depth : Nat) :
    ls.foldl depthAfter depth = depth := by
  induction ls with
  | nil => rfl
  | cons l ls ih =>
    have hl := h l List.mem_cons_self
    rw [List.foldl_cons, depthAfter_of_ne hl.1 hl.2]
    exact ih fun m hm ↦ h m (List.mem_cons_of_mem l hm)

theorem deepest_of_flat {ls : List Lexeme}
    (h : ∀ l ∈ ls, l.kind ≠ .leftParen ∧ l.kind ≠ .rightParen) (depth : Nat) :
    deepest depth ls = depth := by
  induction ls with
  | nil => rfl
  | cons l ls ih =>
    have hl := h l List.mem_cons_self
    rw [deepest, depthAfter_of_ne hl.1 hl.2, ih fun m hm ↦ h m (List.mem_cons_of_mem l hm)]
    exact Nat.max_self depth

theorem flat_comparison {field sign literal : Lexeme} (hfield : field.kind = .identifier)
    (hsign : sign.kind = .comparison) (hliteral : literal.kind = .text ∨ literal.kind = .number) :
    ∀ l ∈ [field, sign, literal], l.kind ≠ .leftParen ∧ l.kind ≠ .rightParen := by
  intro l hl
  simp only [List.mem_cons, List.not_mem_nil, or_false] at hl
  rcases hl with rfl | rfl | rfl
  · simp [hfield]
  · simp [hsign]
  · rcases hliteral with h | h <;> simp [h]

/-- A phrase closes the groups that it opens. -/
theorem Derives.foldl_depthAfter {p : Phrase} {ls : List Lexeme} {f : Formula}
    (h : Derives p ls f) (depth : Nat) : ls.foldl depthAfter depth = depth := by
  induction h generalizing depth with
  | comparison hfield hsign _ hliteral =>
    exact foldl_depthAfter_of_flat (flat_comparison hfield hsign hliteral) depth
  | group hopener hcloser _ ih =>
    rw [List.foldl_cons, List.foldl_append, ih, depthAfter_of_leftParen hopener]
    exact depthAfter_of_rightParen hcloser (depth + 1)
  | single _ ih => exact ih depth
  | chain _ hsign _ _ ihfront ihlast =>
    rw [List.foldl_append, List.foldl_cons, ihfront, ihlast]
    exact depthAfter_of_ne (by simp [hsign]) (by simp [hsign]) depth

theorem deepest_group {opener closer : Lexeme} {ls : List Lexeme} {f : Formula}
    (hopener : opener.kind = .leftParen) (hcloser : closer.kind = .rightParen)
    (inner : Derives .expression ls f) (depth : Nat) :
    deepest depth (opener :: (ls ++ [closer])) = deepest (depth + 1) ls := by
  have hinner := le_deepest (depth + 1) ls
  rw [deepest, depthAfter_of_leftParen hopener, deepest_append, inner.foldl_depthAfter]
  simp only [deepest, depthAfter_of_rightParen hcloser]
  omega

theorem deepest_chain {ls ms : List Lexeme} {sign : Lexeme} {f : Formula}
    (front : Derives .expression ls f) (hsign : sign.kind = .connective) (depth : Nat) :
    deepest depth (ls ++ sign :: ms) = max (deepest depth ls) (deepest depth ms) := by
  have hfront := le_deepest depth ls
  rw [deepest_append, front.foldl_depthAfter, deepest,
    depthAfter_of_ne (by simp [hsign]) (by simp [hsign])]
  omega

/-- A phrase is as deep inside other groups as it is by itself. -/
theorem Derives.deepest_eq {p : Phrase} {ls : List Lexeme} {f : Formula} (h : Derives p ls f)
    (depth : Nat) : deepest depth ls = depth + nesting ls := by
  induction h generalizing depth with
  | comparison hfield hsign _ hliteral =>
    have hflat := flat_comparison hfield hsign hliteral
    rw [nesting, deepest_of_flat hflat, deepest_of_flat hflat]
    rfl
  | group hopener hcloser inner ih =>
    rw [nesting, deepest_group hopener hcloser inner, deepest_group hopener hcloser inner, ih,
      ih (0 + 1)]
    omega
  | single _ ih => exact ih depth
  | chain front hsign _ _ ihfront ihlast =>
    rw [nesting, deepest_chain front hsign, deepest_chain front hsign, ihfront, ihlast]
    simp only [nesting]
    omega

theorem nesting_group {opener closer : Lexeme} {ls : List Lexeme} {f : Formula}
    (hopener : opener.kind = .leftParen) (hcloser : closer.kind = .rightParen)
    (inner : Derives .expression ls f) :
    nesting (opener :: (ls ++ [closer])) = nesting ls + 1 := by
  rw [nesting, deepest_group hopener hcloser inner, inner.deepest_eq]
  omega

theorem nesting_chain {ls ms : List Lexeme} {sign : Lexeme} {f : Formula}
    (front : Derives .expression ls f) (hsign : sign.kind = .connective) :
    nesting (ls ++ sign :: ms) = max (nesting ls) (nesting ms) :=
  deepest_chain front hsign 0

end Grammar

end Criteria
