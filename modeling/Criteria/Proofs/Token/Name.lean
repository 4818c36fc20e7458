import Criteria.Proofs.Token.Scan

/-!
Names. A text is read as one identifier if it is a word that is neither a keyword nor a number; so
a name holds word characters only, and one of them at least is no digit.
-/

set_option autoImplicit false
set_option relaxedAutoImplicit false

namespace Criteria.Token

open Text

/-- Whether the characters make up a name. -/
structure IsName (cs : List Char) : Prop where
  isWord : ∀ c ∈ cs, isWord c = true
  notNumber : ∃ c ∈ cs, isDigit c = false
  notKeyword : ¬Keyword cs

instance (word : List Char) : Decidable (Keyword word) :=
  inferInstanceAs (Decidable (_ ∨ _))

theorem isName_iff_all {cs : List Char} :
    IsName cs ↔ cs.all Text.isWord = true ∧ cs.all isDigit = false ∧ ¬Keyword cs := by
  rw [List.all_eq_true, List.all_eq_false]
  constructor
  · rintro ⟨hword, hnumber, hkeyword⟩
    exact ⟨hword, by simpa using hnumber, hkeyword⟩
  · rintro ⟨hword, hnumber, hkeyword⟩
    exact ⟨hword, by simpa using hnumber, hkeyword⟩

instance (cs : List Char) : Decidable (IsName cs) :=
  decidable_of_iff _ isName_iff_all.symm

namespace IsName

variable {cs : List Char}

theorem ne_nil (h : IsName cs) : cs ≠ [] := by
  rintro rfl
  obtain ⟨c, hc, -⟩ := h.notNumber
  exact List.not_mem_nil hc

theorem word?_eq (h : IsName cs) : word? cs = some (cs, []) :=
  word?_eq_some_iff.mpr ⟨h.ne_nil, h.isWord, rfl, (List.append_nil cs).symm⟩

theorem keyword?_eq (h : IsName cs) : keyword? cs = none := by
  rw [Option.eq_none_iff_forall_ne_some]
  rintro ⟨word, rest⟩ hsome
  obtain ⟨hkeyword, hword⟩ := keyword?_eq_some_iff.mp hsome
  rw [h.word?_eq] at hword
  obtain ⟨rfl, -⟩ : cs = word ∧ [] = rest := by simpa using hword
  exact h.notKeyword hkeyword

theorem number?_eq (h : IsName cs) : number? cs = none := by
  obtain ⟨c, hc, hdigit⟩ := h.notNumber
  have hiff : (number? (cs ++ [])).isSome = true ↔ ∀ c ∈ cs, isDigit c = true :=
    number?_word_isSome_iff h.ne_nil h.isWord rfl
  rw [List.append_nil] at hiff
  rw [← Option.not_isSome_iff_eq_none, hiff]
  intro hdigits
  rw [hdigits c hc] at hdigit
  exact Bool.false_ne_true hdigit.symm

end IsName

/-- An identifier is read where neither a keyword nor a number is. -/
theorem word?_of_identifier {cs text rest : List Char}
    (h : lexeme? cs = some (.identifier, text, rest)) :
    keyword? cs = none ∧ number? cs = none ∧ word? cs = some (text, rest) := by
  cases readAs_of_lexeme? h with
  | identifier hkeyword hnumber h => exact ⟨hkeyword, hnumber, h⟩

/-- A text is read as one identifier exactly if it is a name. -/
theorem whole_identifier_iff {s : String} :
    Lexeme.Whole ⟨.identifier, s⟩ ↔ IsName s.toList := by
  constructor
  · intro h
    obtain ⟨hkeyword, hnumber, hword⟩ := word?_of_identifier h
    obtain ⟨hne, hall, -, -⟩ := word?_eq_some_iff.mp hword
    refine ⟨hall, ?_, ?_⟩
    · by_contra hnone
      have hdigits : ∀ c ∈ s.toList, isDigit c = true := by
        intro c hc
        by_contra hdigit
        exact hnone ⟨c, hc, Bool.eq_false_iff.mpr hdigit⟩
      have hlexeme := (lexeme?_of_unsigned (.whole hne hdigits)).1
      rw [show lexeme? s.toList = some (.identifier, s.toList, []) from h] at hlexeme
      simp at hlexeme
    · intro hkey
      rw [keyword?_eq_some_iff.mpr ⟨hkey, hword⟩] at hkeyword
      exact Option.some_ne_none _ hkeyword
  · intro h
    have hname := lexeme?_of_word h.word?_eq h.keyword?_eq h.number?_eq (.nil [])
    rwa [List.append_nil] at hname

end Criteria.Token
