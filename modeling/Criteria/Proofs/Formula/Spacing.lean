import Criteria.Proofs.Formula.Read

/-!
Rule texts with other blanks. The tokens of a text may be written one after another with any blanks
around them, as long as there are some between two of them. What results is made of the same tokens,
and so it spells the same formula or none.
-/

set_option autoImplicit false
set_option relaxedAutoImplicit false

namespace Criteria

namespace Text

/-- Whether a text has blanks only. -/
def IsBlanks (s : String) : Prop :=
  ∀ c ∈ s.toList, isBlank c = true

instance (s : String) : Decidable (IsBlanks s) :=
  decidable_of_iff (s.toList.all isBlank = true) List.all_eq_true

/-- The words in order, each with the blanks that follow it. Only the last one may have none. -/
inductive Spaced : List String → String → Prop
  | nil : Spaced [] ""
  | cons {word gap rest : String} {words : List String} (hgap : IsBlanks gap)
    (hapart : words ≠ [] → gap ≠ "") (h : Spaced words rest) :
    Spaced (word :: words) (word ++ (gap ++ rest))

/-- The words in order, with blanks between them, and perhaps before and after them. -/
def LaidOut (words : List String) (s : String) : Prop :=
  ∃ lead rest, IsBlanks lead ∧ Spaced words rest ∧ s = lead ++ rest

/-- What follows a word that stands apart from the next one leaves the word as it is. -/
theorem seam_of_spaced {gap rest : String} {words : List String} (hgap : IsBlanks gap)
    (hapart : words ≠ [] → gap ≠ "") (h : Spaced words rest) :
    Token.Seam (gap ++ rest).toList := by
  rw [String.toList_append]
  cases hlist : gap.toList with
  | cons c cs =>
    have hc : isBlank c = true := hgap c (by rw [hlist]; exact List.mem_cons_self)
    exact Token.Seam.cons (Or.inl hc) (cs ++ rest.toList)
  | nil =>
    have hempty : gap = "" := by simpa using hlist
    have hlast : words = [] := not_not.mp fun hne ↦ hapart hne hempty
    subst hlast
    cases h
    exact Token.Seam.nil

end Text

namespace Token

open Text

/-- Lexemes that are written apart from each other are read as they are. -/
theorem lexemes?_of_spaced {ls : List Lexeme} {s : String} (hwhole : ∀ l ∈ ls, l.Whole)
    (h : Spaced (ls.map Lexeme.text) s) : lexemes? s.toList = some ls := by
  induction ls generalizing s with
  | nil =>
    cases h
    exact lexemes?_nil
  | cons l ls ih =>
    obtain ⟨hl, hls⟩ := List.forall_mem_cons.mp hwhole
    cases h with
    | @cons _ gap rest _ hgap hapart hrest =>
      have hword := lexemes?_of_whole hl
      rw [String.toList_append, lexemes?_append (seam_of_spaced hgap hapart hrest) _
        (Or.inr (by rw [hword]; rfl)), hword, String.toList_append, lexemes?_blanks hgap,
        ih hls hrest]
      rfl

theorem lexemes?_of_laidOut {ls : List Lexeme} {s : String} (hwhole : ∀ l ∈ ls, l.Whole)
    (h : LaidOut (ls.map Lexeme.text) s) : lexemes? s.toList = some ls := by
  obtain ⟨lead, rest, hlead, hrest, rfl⟩ := h
  rw [String.toList_append, lexemes?_blanks hlead, lexemes?_of_spaced hwhole hrest]

end Token

namespace Formula

open Text Token

/-- Layout does not matter. The tokens of a text, written in order with blanks between them, are
read as tokens of the same kinds and texts, and the two texts spell the same formula under the same
limits, or neither of them spells one. -/
theorem layout_does_not_matter (s s' : String) (ts : List Token) (hscan : scan s = .ok ts)
    (hlayout : LaidOut (ts.map Token.text) s') :
    (∃ ts', scan s' = .ok ts' ∧ ts'.map lexeme = ts.map lexeme) ∧
      ∀ (limits : Limits) (f : Formula), read limits s' = .ok f ↔ read limits s = .ok f := by
  have hlexemes : lexemes? s.toList = some (ts.map lexeme) :=
    lexemes?_eq_some_iff.mpr ⟨ts, hscan, rfl⟩
  have htexts : (ts.map lexeme).map Lexeme.text = ts.map Token.text := by
    rw [List.map_map]
    rfl
  have hspread : lexemes? s'.toList = some (ts.map lexeme) :=
    lexemes?_of_laidOut (whole_of_mem_lexemes? hlexemes) (by rwa [htexts])
  exact ⟨lexemes?_eq_some_iff.mp hspread,
    fun limits f ↦ read_eq_ok_congr (hspread.trans hlexemes.symm)⟩

/-- A sign that touches a number, a name that begins like a keyword, and blanks of three scripts. -/
theorem layout_does_not_matter_of_five :
    ∃ f, read ⟨5, 1⟩ "(ORa>=-1)" = .ok f ∧
      read ⟨5, 1⟩ "\u3000( ORa\u2003>=\n\t-1\u0085 )" = .ok f := by
  have hscan : scan "(ORa>=-1)" = .ok [⟨.leftParen, "(", 0⟩, ⟨.identifier, "ORa", 1⟩,
      ⟨.comparison, ">=", 4⟩, ⟨.number, "-1", 6⟩, ⟨.rightParen, ")", 8⟩] := by
    decide +kernel
  have hspaced : Spaced ["(", "ORa", ">=", "-1", ")"] "( ORa\u2003>=\n\t-1\u0085 )" :=
    .cons (show IsBlanks " " by decide) (by decide) <|
      .cons (show IsBlanks "\u2003" by decide) (by decide) <|
      .cons (show IsBlanks "\n\t" by decide) (by decide) <|
      .cons (show IsBlanks "\u0085 " by decide) (by decide) <|
      .cons (show IsBlanks "" by decide) (by decide) .nil
  have hread := read_eq_ok_get ⟨5, 1⟩ "(ORa>=-1)" (by decide +kernel)
  obtain ⟨-, hsame⟩ := layout_does_not_matter _ _ _ hscan
    ⟨"\u3000", _, by decide, hspaced, rfl⟩
  exact ⟨_, hread, (hsame _ _).mpr hread⟩

end Formula

end Criteria
