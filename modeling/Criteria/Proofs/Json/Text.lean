import Criteria.Json.Token
import Mathlib

/-!
Quoted texts. Each character is escaped by itself, and read by itself again; so a quoted text is one
token, whatever it holds and whatever follows it.
-/

set_option autoImplicit false
set_option relaxedAutoImplicit false

namespace Criteria.Json

/-! ### One character -/

/-- A character that needs no escape is read as it is. -/
theorem stringFrom_plain {c : Char} (hquote : c ≠ '"') (hslash : c ≠ '\\')
    (hprints : ¬c.toNat < 0x20) (done rest : List Char) :
    stringFrom (some done) (c :: rest) = stringFrom (some (c :: done)) rest := by
  rw [stringFrom, if_neg hprints, Option.map_some]
  · exact hquote
  all_goals
    intros
    contradiction

/-- A letter behind a backslash stands for the character that it names. -/
theorem stringFrom_short {c plain : Char} (h : shortEscape? c = some plain) (hcode : c ≠ 'u')
    (done rest : List Char) :
    stringFrom (some done) ('\\' :: c :: rest) = stringFrom (some (plain :: done)) rest := by
  rw [stringFrom]
  · simp only [h, Option.map_some]
  all_goals
    intros
    contradiction

theorem withCode_of_whole {code : Nat} (h : isSurrogate code = false) (done : List Char) :
    withCode (some done) code = some (Char.ofNat code :: done) := by
  simp [withCode, h]

/-- A code point that is no half of a character is that character, even before another one. -/
theorem stringFrom_code {a b c d : Char} {code : Nat} (h : hexWord? a b c d = some code)
    (hwhole : isSurrogate code = false) (done rest : List Char) :
    stringFrom (some done) ('\\' :: 'u' :: a :: b :: c :: d :: rest) =
      stringFrom (some (Char.ofNat code :: done)) rest := by
  have hhigh : isHighSurrogate code = false := (Bool.or_eq_false_iff.mp hwhole).1
  by_cases hnext : ∃ e f g i tail, rest = '\\' :: 'u' :: e :: f :: g :: i :: tail
  · obtain ⟨e, f, g, i, tail, rfl⟩ := hnext
    rw [stringFrom]
    cases hlow : hexWord? e f g i with
    | some low => simp [h, hhigh, withCode_of_whole hwhole]
    | none =>
      -- The next code point is at fault, and so it is after this one.
      by_cases hafter : ∃ m n o p last, tail = '\\' :: 'u' :: m :: n :: o :: p :: last
      · obtain ⟨m, n, o, p, last, rfl⟩ := hafter
        rw [stringFrom]
        simp [h, hlow]
      · rw [stringFrom]
        · simp [h, hlow]
        · intro m n o p last heq
          exact hafter ⟨m, n, o, p, last, heq⟩
  · rw [stringFrom]
    · simp only [h, withCode_of_whole hwhole]
    · intro e f g i tail heq
      exact hnext ⟨e, f, g, i, tail, heq⟩

/-- The code points of control characters are written with two zeros in front. -/
theorem hexWord?_control :
    ∀ n < 0x20, hexWord? '0' '0' (Text.hexDigit (n / 16)) (Text.hexDigit (n % 16)) = some n ∧
      isSurrogate n = false := by
  decide

/-- An escaped character is read as that character. -/
theorem stringFrom_escaped (c : Char) (done rest : List Char) :
    stringFrom (some done) (escaped c ++ rest) = stringFrom (some (c :: done)) rest := by
  unfold escaped
  split
  · exact stringFrom_short rfl (by decide) done rest
  · exact stringFrom_short rfl (by decide) done rest
  · exact stringFrom_short rfl (by decide) done rest
  · exact stringFrom_short rfl (by decide) done rest
  · exact stringFrom_short rfl (by decide) done rest
  · exact stringFrom_short rfl (by decide) done rest
  · exact stringFrom_short rfl (by decide) done rest
  · rename_i hquote hslash _ _ _ _ _
    by_cases hcontrol : c.toNat < 0x20
    · obtain ⟨hhex, hwhole⟩ := hexWord?_control c.toNat hcontrol
      rw [if_pos hcontrol]
      have hcode := stringFrom_code hhex hwhole done rest
      rwa [Char.ofNat_toNat] at hcode
    · rw [if_neg hcontrol]
      exact stringFrom_plain hquote hslash hcontrol done rest

/-! ### Whole texts -/

theorem stringFrom_quoted (cs done rest : List Char) :
    stringFrom (some done) (cs.foldr (fun c tail ↦ escaped c ++ tail) ('"' :: rest)) =
      some (some (String.ofList (done.reverse ++ cs)), rest) := by
  induction cs generalizing done with
  | nil => rw [List.foldr_nil, stringFrom, List.append_nil, Option.map_some]
  | cons c cs ih =>
    rw [List.foldr_cons, stringFrom_escaped, ih, List.reverse_cons, List.append_assoc]
    rfl

/-- A quoted text is one token, which spells that text. -/
theorem token?_quotedOnto (s : String) (rest : List Char) :
    token? (quotedOnto s rest) = some (.text (some s), rest) := by
  rw [quotedOnto, token?, stringFrom_quoted]
  simp

end Criteria.Json
