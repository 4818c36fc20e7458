import Criteria.Text.Alphanumeric

/-!
Blanks lie outside words, and no letter or number is one. The ranges are compared once, code point
by code point. So trimming leaves a text alone that has no blanks, or none at its two ends.
-/

set_option autoImplicit false
set_option relaxedAutoImplicit false

namespace Criteria.Text

theorem exists_range_of_inRanges {n : Nat} {ranges : List (Nat × Nat)}
    (h : inRanges n ranges = true) : ∃ r ∈ ranges, r.1 ≤ n ∧ n ≤ r.2 := by
  induction ranges with
  | nil => simp [inRanges] at h
  | cons r ranges ih =>
    obtain ⟨low, high⟩ := r
    simp only [inRanges] at h
    by_cases hlow : n < low
    · simp [hlow] at h
    · by_cases hhigh : n ≤ high
      · exact ⟨(low, high), List.mem_cons_self, by omega, hhigh⟩
      · simp only [if_neg hlow, if_neg hhigh] at h
        obtain ⟨r, hr, hn⟩ := ih h
        exact ⟨r, List.mem_cons_of_mem _ hr, hn⟩

/-- What holds of every code point of the blank ranges holds of every blank. -/
theorem of_isBlank {p : Nat → Bool} (h : (blankRanges.all fun r ↦
    (List.range' r.1 (r.2 + 1 - r.1)).all p) = true) {c : Char} (hc : isBlank c = true) :
    p c.toNat = true := by
  obtain ⟨r, hr, hlow, hhigh⟩ := exists_range_of_inRanges hc
  exact List.all_eq_true.mp (List.all_eq_true.mp h r hr) c.toNat
    (List.mem_range'_1.mpr ⟨hlow, by omega⟩)

theorem isWord_eq_false_of_isBlank {c : Char} (h : isBlank c = true) : isWord c = false := by
  have houtside := of_isBlank (p := fun n ↦ !(inRanges n letterRanges || inRanges n digitRanges ||
    inRanges n connectorRanges || inRanges n joinerRanges)) (by decide +kernel) h
  simpa [isWord, isDigit] using houtside

theorem isBlank_eq_false_of_isWord {c : Char} (h : isWord c = true) : isBlank c = false := by
  rw [Bool.eq_false_iff]
  intro hblank
  rw [isWord_eq_false_of_isBlank hblank] at h
  exact Bool.false_ne_true h

theorem isBlank_eq_false_of_isAlphanumeric {c : Char} (h : isAlphanumeric c = true) :
    isBlank c = false := by
  rw [Bool.eq_false_iff]
  intro hblank
  have houtside := of_isBlank (p := fun n ↦ !(inRanges n letterRanges || inRanges n digitRanges ||
    inRanges n otherNumberRanges || inRanges n addedRanges)) (by decide +kernel) hblank
  simp only [Bool.not_eq_true', Bool.or_eq_false_iff] at houtside
  obtain ⟨⟨⟨hletter, hdigit⟩, hnumber⟩, hadded⟩ := houtside
  simp [isAlphanumeric, isAlphabetic, isDigit, hletter, hdigit, hnumber, hadded] at h

/-- A text with no blank at its ends is trimmed already. -/
theorem trimChars_eq_self {cs : List Char} (hfirst : ∀ c ∈ cs.head?, isBlank c = false)
    (hlast : ∀ c ∈ cs.getLast?, isBlank c = false) : trimChars cs = cs := by
  have hdrop {ds : List Char} (hds : ∀ c ∈ ds.head?, isBlank c = false) :
      ds.dropWhile isBlank = ds := by
    cases ds with
    | nil => rfl
    | cons d ds => simp [hds d rfl]
  rw [trimChars, hdrop hfirst, hdrop (by rwa [List.head?_reverse]), List.reverse_reverse]

theorem trimChars_of_noBlank {cs : List Char} (h : ∀ c ∈ cs, isBlank c = false) :
    trimChars cs = cs :=
  trimChars_eq_self (fun c hc ↦ h c (List.mem_of_head? hc))
    fun c hc ↦ h c (List.mem_of_getLast? hc)

@[simp] theorem byteLength_append (cs ds : List Char) :
    byteLength (cs ++ ds) = byteLength cs + byteLength ds := by
  induction cs with
  | nil => simp [byteLength]
  | cons c cs ih =>
    simp only [byteLength, List.cons_append, List.foldr_cons] at ih ⊢
    omega

end Criteria.Text
