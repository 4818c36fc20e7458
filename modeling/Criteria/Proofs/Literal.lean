import Criteria.Literal
import Criteria.Proofs.Decimal.ReadBack
import Criteria.Proofs.Token.Scan

/-!
Literals between a formula and its text. A literal that some token spells is written as one token,
and that token spells it again.
-/

set_option autoImplicit false
set_option relaxedAutoImplicit false

namespace Criteria.Literal

open Token

/-- The kind of token that a literal is written as. -/
def kind : Literal → Kind
  | .number _ => .number
  | .text _ => .text

def lexeme (l : Literal) : Lexeme :=
  ⟨l.kind, l.write⟩

theorem kind_lexeme (l : Literal) : l.lexeme.kind = .text ∨ l.lexeme.kind = .number := by
  cases l with
  | number x => exact Or.inr rfl
  | text s => exact Or.inl rfl

/-- Whether a token may spell the literal: numbers are finite, and texts have no quote. -/
def Sayable : Literal → Prop
  | .number x => x.isFinite = true
  | .text s => '\'' ∉ s.toList

/-! ### Texts of literals -/

theorem toList_write_text (s : String) :
    (Literal.text s).write.toList = '\'' :: (s.toList ++ ['\'']) := by
  simp [write]

theorem toList_write_number (x : Float) :
    (Literal.number x).write.toList = Layout.plain.chars x :=
  String.toList_ofList

theorem unquote?_quotes (cs : List Char) : unquote? ('\'' :: (cs ++ ['\''])) = some cs := by
  simp [unquote?]

theorem unquote?_of_ne {c : Char} (h : c ≠ '\'') (cs : List Char) : unquote? (c :: cs) = none := by
  unfold unquote?
  split
  · rename_i heq
    exact absurd (List.cons.inj heq).1 h
  · rfl

/-- A text that begins with a digit or a minus is no quoted text. -/
theorem unquote?_of_digits {cs : List Char}
    (h : Unsigned cs ∨ ∃ digits, cs = '-' :: digits ∧ Unsigned digits) : unquote? cs = none := by
  rcases h with h | ⟨digits, rfl, -⟩
  · obtain ⟨d, ds, rfl, hd⟩ := h.exists_cons
    refine unquote?_of_ne ?_ ds
    rintro rfl
    exact absurd hd (by decide)
  · exact unquote?_of_ne (by decide) digits

/-- The characters of a finite number are digits, with or without a minus. -/
theorem digits_chars {x : Float} (h : x.isFinite = true) :
    Unsigned (Layout.plain.chars x) ∨
      ∃ digits, Layout.plain.chars x = '-' :: digits ∧ Unsigned digits := by
  obtain ⟨body, d, hspells, -, hchars⟩ := Decimal.exists_spells_chars h
  rw [hchars]
  cases Binary64.isNegative x with
  | true => exact Or.inr ⟨body, rfl, hspells.unsigned⟩
  | false => exact Or.inl hspells.unsigned

theorem isBlank_of_mem_chars {x : Float} (h : x.isFinite = true) :
    ∀ c ∈ Layout.plain.chars x, Text.isBlank c = false := by
  have hbody {body : List Char} (hbody : Unsigned body) : ∀ c ∈ body, Text.isBlank c = false := by
    intro c hc
    rcases hbody.isDigit_or_point c hc with hdigit | rfl
    · exact Text.isBlank_eq_false_of_isWord (Text.isWord_of_isDigit hdigit)
    · decide
  rcases digits_chars h with hdigits | ⟨digits, hchars, hdigits⟩
  · exact hbody hdigits
  · rw [hchars, List.forall_mem_cons]
    exact ⟨by decide, hbody hdigits⟩

/-! ### Written literals -/

/-- A written literal is read as one token. -/
theorem whole_lexeme {l : Literal} (h : l.Sayable) : l.lexeme.Whole := by
  cases l with
  | number x =>
    rw [Lexeme.Whole, lexeme, toList_write_number]
    rcases digits_chars h with hdigits | ⟨digits, hchars, hdigits⟩
    · exact (lexeme?_of_unsigned hdigits).1
    · rw [hchars]
      exact (lexeme?_of_unsigned hdigits).2
  | text s =>
    rw [Lexeme.Whole, lexeme, toList_write_text]
    have hread := lexeme?_of_quoted (quoted?_of_closed h []) []
    rwa [List.append_nil] at hread

/-- The token of a written literal spells that literal. -/
theorem ofTokenText_write {l : Literal} (h : l.Sayable) : ofTokenText l.write = l := by
  cases l with
  | number x =>
    rw [ofTokenText, toList_write_number, unquote?_of_digits (digits_chars h),
      Decimal.finiteNumeral?_chars h]
  | text s =>
    rw [ofTokenText, toList_write_text, unquote?_quotes]
    simp

/-! ### Literals of tokens -/

theorem isFinite_of_finiteNumeral? {cs : List Char} {x : Float} (h : finiteNumeral? cs = some x) :
    x.isFinite = true := by
  rw [finiteNumeral?, Option.filter_eq_some_iff] at h
  exact h.2

theorem quote_notMem_of_unsigned {cs : List Char} (h : Unsigned cs) : '\'' ∉ cs := by
  intro hmem
  rcases h.isDigit_or_point '\'' hmem with hdigit | hpoint
  · exact absurd hdigit (by decide)
  · exact absurd hpoint (by decide)

/-- What a literal token spells, a token may spell. -/
theorem sayable_ofTokenText {l : Lexeme} (hwhole : l.Whole)
    (hkind : l.kind = .text ∨ l.kind = .number) : (ofTokenText l.text).Sayable := by
  unfold Lexeme.Whole at hwhole
  rcases hkind with hkind | hkind <;> rw [hkind] at hwhole
  · obtain ⟨front, hfront, htext⟩ := exists_quotes hwhole
    rw [ofTokenText, htext, unquote?_quotes]
    simpa [Sayable] using hfront
  · have hdigits := exists_digits hwhole
    rw [ofTokenText, unquote?_of_digits hdigits]
    cases hnumber : finiteNumeral? l.text.toList with
    | some x => exact isFinite_of_finiteNumeral? hnumber
    | none =>
      change '\'' ∉ l.text.toList
      rcases hdigits with hdigits | ⟨digits, htext, hdigits⟩
      · exact quote_notMem_of_unsigned hdigits
      · rw [htext]
        simp [quote_notMem_of_unsigned hdigits]

/-- A literal that a token may spell equals itself. -/
theorem beq_self {l : Literal} (h : l.Sayable) : (l == l) = true := by
  cases l with
  | number x => exact Binary64.beq_self_of_isFinite h
  | text s => exact beq_self_eq_true s

/-- What equals a literal that can be said, can be said: only finite numbers equal finite ones. -/
theorem Sayable.of_beq {l m : Literal} (hl : l.Sayable) (h : (l == m) = true) : m.Sayable := by
  cases l with
  | number x =>
    cases m with
    | number y => exact Binary64.isFinite_of_beq hl h
    | text s => exact absurd h Bool.false_ne_true
  | text s =>
    cases m with
    | number y => exact absurd h Bool.false_ne_true
    | text t =>
      obtain rfl : s = t := beq_iff_eq.mp h
      exact hl

end Criteria.Literal
