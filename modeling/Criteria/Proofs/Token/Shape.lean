import Criteria.Token.Lexeme
import Mathlib.Data.List.TakeWhile

/-!
What a lexeme of each class looks like: a text literal between quotes, a comparison sign, a word
or keyword, and the digits of a number.
-/

set_option autoImplicit false
set_option relaxedAutoImplicit false

namespace Criteria.Token

open Text

/-! ### Text literals -/

theorem quoted?_of_closed {front : List Char} (h : '\'' ∉ front) (back : List Char) :
    quoted? ('\'' :: (front ++ '\'' :: back)) = some ('\'' :: (front ++ ['\'']), back) := by
  have hall : ∀ c ∈ front, (c != '\'') = true := by
    intro c hc
    rw [bne_iff_ne]
    rintro rfl
    exact h hc
  have htake : (front ++ '\'' :: back).takeWhile (· != '\'') = front := by
    rw [List.takeWhile_append_of_pos hall]
    simp
  have hdrop : (front ++ '\'' :: back).dropWhile (· != '\'') = '\'' :: back := by
    rw [List.dropWhile_append_of_pos hall]
    simp
  simp only [quoted?, htake, hdrop]

theorem quoted?_of_not_mem {cs : List Char} (h : '\'' ∉ cs) : quoted? ('\'' :: cs) = none := by
  have hall : ∀ c ∈ cs, (c != '\'') = true := by
    intro c hc
    rw [bne_iff_ne]
    rintro rfl
    exact h hc
  have hdrop : cs.dropWhile (· != '\'') = [] := List.dropWhile_eq_nil_iff.mpr hall
  simp only [quoted?, hdrop]

theorem quoted?_of_ne {c : Char} (h : c ≠ '\'') (cs : List Char) : quoted? (c :: cs) = none := by
  unfold quoted?
  split
  · rename_i heq
    exact absurd (List.cons.inj heq).1 h
  · rfl

theorem quoted?_eq_some {cs text rest : List Char} (h : quoted? cs = some (text, rest)) :
    ∃ front, '\'' ∉ front ∧ text = '\'' :: (front ++ ['\'']) := by
  cases cs with
  | nil => simp [quoted?] at h
  | cons c cs =>
    by_cases hc : c = '\''
    · subst hc
      by_cases hclosed : '\'' ∈ cs
      · obtain ⟨front, back, rfl, hfront⟩ := List.eq_append_cons_of_mem hclosed
        rw [quoted?_of_closed hfront] at h
        exact ⟨front, hfront, (congrArg Prod.fst (Option.some.inj h)).symm⟩
      · rw [quoted?_of_not_mem hclosed] at h
        exact absurd h.symm (Option.some_ne_none _)
    · rw [quoted?_of_ne hc] at h
      exact absurd h.symm (Option.some_ne_none _)

/-! ### Comparison signs -/

theorem comparison?_of_not_mem {c : Char} (h : c ∉ ['>', '<', '!', '=']) (rest : List Char) :
    comparison? (c :: rest) = none := by
  unfold comparison?
  split <;> simp_all

theorem comparison?_pair {c : Char} (h : c ∈ ['>', '<', '!', '=']) (rest : List Char) :
    comparison? (c :: '=' :: rest) = some ([c, '='], rest) := by
  simp only [List.mem_cons, List.not_mem_nil, or_false] at h
  rcases h with rfl | rfl | rfl | rfl <;> rfl

theorem comparison?_single {rest : List Char} (h : rest.head? ≠ some '=') (c : Char) :
    comparison? (c :: rest) = if c ∈ ['>', '<', '='] then some ([c], rest) else none := by
  unfold comparison?
  split <;> simp_all

/-- A comparison is a sign with an equality sign behind it, or a sign without. -/
theorem comparison?_eq_some {cs text rest : List Char} (h : comparison? cs = some (text, rest)) :
    (∃ c ∈ ['>', '<', '!', '='], text = [c, '=']) ∨
      (∃ c ∈ ['>', '<', '='], text = [c]) ∧ rest.head? ≠ some '=' := by
  cases cs with
  | nil => simp [comparison?] at h
  | cons c cs =>
    by_cases hhead : cs.head? = some '='
    · obtain ⟨cs, rfl⟩ := List.head?_eq_some_iff.mp hhead
      by_cases hc : c ∈ ['>', '<', '!', '=']
      · rw [comparison?_pair hc] at h
        exact Or.inl ⟨c, hc, (congrArg Prod.fst (Option.some.inj h)).symm⟩
      · rw [comparison?_of_not_mem hc] at h
        exact absurd h.symm (Option.some_ne_none _)
    · rw [comparison?_single hhead] at h
      split at h
      · rename_i hc
        obtain ⟨rfl, rfl⟩ : [c] = text ∧ cs = rest := by simpa using h
        exact Or.inr ⟨⟨c, hc, rfl⟩, hhead⟩
      · cases h

/-! ### Words and keywords -/

theorem endsWord_iff (cs : List Char) : endsWord cs = true ↔ cs.takeWhile isWord = [] := by
  cases cs with
  | nil => simp [endsWord]
  | cons c cs => cases h : isWord c <;> simp [endsWord, h]

theorem endsWord_point (cs : List Char) : endsWord ('.' :: cs) = true := by
  simp [endsWord, show isWord '.' = false by decide]

theorem endsWord_dropWhile (cs : List Char) : endsWord (cs.dropWhile isWord) = true := by
  induction cs with
  | nil => rfl
  | cons c cs ih =>
    cases h : isWord c with
    | true => simpa [h] using ih
    | false => simp [h, endsWord]

theorem word?_append_of_isWord {word : List Char} (hword : ∀ c ∈ word, isWord c = true)
    (hne : word ≠ []) (rest : List Char) :
    word? (word ++ rest) = some (word ++ rest.takeWhile isWord, rest.dropWhile isWord) := by
  simp [word?, List.takeWhile_append_of_pos hword, List.dropWhile_append_of_pos hword, hne]

theorem word?_eq_some_iff {cs word rest : List Char} :
    word? cs = some (word, rest) ↔
      word ≠ [] ∧ (∀ c ∈ word, isWord c = true) ∧ endsWord rest = true ∧ cs = word ++ rest := by
  constructor
  · intro h
    obtain ⟨rfl, hne⟩ := word?_append h
    simp only [word?] at h
    split at h
    · simp at h
    · obtain ⟨htake, hdrop⟩ : (word ++ rest).takeWhile isWord = word ∧
          (word ++ rest).dropWhile isWord = rest := by simpa using h
      refine ⟨hne, fun c hc ↦ ?_, hdrop ▸ endsWord_dropWhile _, rfl⟩
      exact List.mem_takeWhile_imp (htake.symm ▸ hc)
  · rintro ⟨hne, hword, hends, rfl⟩
    rw [word?_append_of_isWord hword hne, (endsWord_iff rest).mp hends, List.append_nil]
    simpa [(endsWord_iff rest).mp hends] using
      List.takeWhile_append_dropWhile (p := isWord) (l := rest)

/-- `AND` and `OR`. -/
def Keyword (word : List Char) : Prop :=
  word = ['A', 'N', 'D'] ∨ word = ['O', 'R']

theorem Keyword.isWord {word : List Char} (h : Keyword word) : ∀ c ∈ word, isWord c = true := by
  refine List.all_eq_true.mp ?_
  rcases h with rfl | rfl <;> decide

theorem Keyword.ne_nil {word : List Char} (h : Keyword word) : word ≠ [] := by
  rcases h with rfl | rfl <;> decide

/-- No keyword begins another one. -/
theorem Keyword.eq_nil_of_append {word more : List Char} (h : Keyword word)
    (hmore : Keyword (word ++ more)) : more = [] := by
  rcases h with rfl | rfl <;> simpa [Keyword] using hmore

theorem keyword?_of_keyword {word : List Char} (h : Keyword word) (rest : List Char) :
    keyword? (word ++ rest) = if endsWord rest then some (word, rest) else none := by
  rcases h with rfl | rfl <;> rfl

theorem keyword?_of_not_keyword {cs : List Char}
    (h : ∀ word rest, cs = word ++ rest → ¬Keyword word) : keyword? cs = none := by
  unfold keyword?
  split
  · exact absurd (Or.inl rfl) (h ['A', 'N', 'D'] _ rfl)
  · exact absurd (Or.inr rfl) (h ['O', 'R'] _ rfl)
  · rfl

theorem keyword?_of_ne {c : Char} (ha : c ≠ 'A') (ho : c ≠ 'O') (cs : List Char) :
    keyword? (c :: cs) = none := by
  apply keyword?_of_not_keyword
  rintro word rest heq (rfl | rfl)
  · exact ha (List.cons.inj heq).1
  · exact ho (List.cons.inj heq).1

/-- A keyword is a word. -/
theorem keyword?_eq_some_iff {cs word rest : List Char} :
    keyword? cs = some (word, rest) ↔ Keyword word ∧ word? cs = some (word, rest) := by
  by_cases hkey : ∃ key more, cs = key ++ more ∧ Keyword key
  · obtain ⟨key, more, rfl, hkey⟩ := hkey
    rw [keyword?_of_keyword hkey, word?_append_of_isWord hkey.isWord hkey.ne_nil]
    by_cases hends : endsWord more = true
    · have htake := (endsWord_iff more).mp hends
      have hdrop : more.dropWhile isWord = more := by
        simpa [htake] using List.takeWhile_append_dropWhile (p := isWord) (l := more)
      rw [if_pos hends, htake, hdrop, List.append_nil]
      constructor
      · intro h
        obtain ⟨rfl, rfl⟩ : key = word ∧ more = rest := by simpa using h
        exact ⟨hkey, rfl⟩
      · exact And.right
    · rw [if_neg hends]
      constructor
      · intro h
        simp at h
      · rintro ⟨hword, h⟩
        obtain ⟨rfl, -⟩ : key ++ more.takeWhile isWord = word ∧ _ := by simpa using h
        exact absurd ((endsWord_iff more).mpr (hkey.eq_nil_of_append hword)) hends
  · rw [keyword?_of_not_keyword fun word rest h hword ↦ hkey ⟨word, rest, h, hword⟩]
    constructor
    · intro h
      simp at h
    · rintro ⟨hword, h⟩
      exact absurd ⟨word, rest, (word?_append h).1.symm, hword⟩ hkey

/-! ### Numbers -/

/-- Digits, and perhaps a point and more digits. -/
inductive Unsigned : List Char → Prop
  | whole {ds : List Char} (hne : ds ≠ []) (hds : ∀ c ∈ ds, isDigit c = true) : Unsigned ds
  | point {ds es : List Char} (hne : ds ≠ []) (hds : ∀ c ∈ ds, isDigit c = true) (hne' : es ≠ [])
      (hes : ∀ c ∈ es, isDigit c = true) : Unsigned (ds ++ '.' :: es)

theorem takeWhile_append_of_endsWord {ds rest : List Char} (hds : ∀ c ∈ ds, isDigit c = true)
    (hrest : endsWord rest = true) :
    (ds ++ rest).takeWhile isDigit = ds ∧ (ds ++ rest).dropWhile isDigit = rest := by
  rw [List.takeWhile_append_of_pos hds, List.dropWhile_append_of_pos hds]
  cases rest with
  | nil => simp
  | cons c rest =>
    have hc : isDigit c = false := by
      rw [Bool.eq_false_iff]
      intro hdigit
      simp [endsWord, isWord_of_isDigit hdigit] at hrest
    simp [hc]

theorem fraction?_of_digits {es rest : List Char} (hne : es ≠ [])
    (hes : ∀ c ∈ es, isDigit c = true) (hrest : endsWord rest = true) :
    fraction? ('.' :: (es ++ rest)) = some ('.' :: es, rest) := by
  obtain ⟨htake, hdrop⟩ := takeWhile_append_of_endsWord hes hrest
  obtain ⟨d, es, rfl⟩ := List.exists_cons_of_ne_nil hne
  simp only [fraction?, htake, hdrop]

theorem fraction?_of_ne {rest : List Char} (h : rest.head? ≠ some '.') : fraction? rest = none := by
  unfold fraction?
  split
  · exact absurd rfl h
  · rfl

/-- The longest number is taken, so no point may follow its digits. -/
theorem unsigned?_append_of_unsigned {t rest : List Char} (h : Unsigned t)
    (hends : endsWord rest = true) (hpoint : rest.head? ≠ some '.') :
    unsigned? (t ++ rest) = some (t, rest) := by
  cases h with
  | whole hne hds =>
    obtain ⟨htake, hdrop⟩ := takeWhile_append_of_endsWord hds hends
    simp [unsigned?, htake, hdrop, hne, fraction?_of_ne hpoint, hends]
  | @point ds es hne hds hne' hes =>
    obtain ⟨htake, hdrop⟩ := takeWhile_append_of_endsWord hds (endsWord_point (es ++ rest))
    rw [List.append_assoc, List.cons_append]
    simp [unsigned?, htake, hdrop, hne, fraction?_of_digits hne' hes hends, hends, Option.filter]

theorem unsigned?_isSome_of_digits {ds rest : List Char} (hne : ds ≠ [])
    (hds : ∀ c ∈ ds, isDigit c = true) (hends : endsWord rest = true) :
    (unsigned? (ds ++ rest)).isSome = true := by
  obtain ⟨htake, hdrop⟩ := takeWhile_append_of_endsWord hds hends
  simp only [unsigned?, htake, hdrop, if_neg hne]
  split
  · rfl
  · rw [if_pos hends]
    rfl

theorem Unsigned.exists_cons {t : List Char} (h : Unsigned t) :
    ∃ d ds, t = d :: ds ∧ isDigit d = true := by
  cases h with
  | whole hne hds =>
    obtain ⟨d, ds, rfl⟩ := List.exists_cons_of_ne_nil hne
    exact ⟨d, ds, rfl, hds d List.mem_cons_self⟩
  | @point ds es hne hds =>
    obtain ⟨d, ds, rfl⟩ := List.exists_cons_of_ne_nil hne
    exact ⟨d, ds ++ '.' :: es, rfl, hds d List.mem_cons_self⟩

theorem Unsigned.isDigit_or_point {t : List Char} (h : Unsigned t) :
    ∀ c ∈ t, isDigit c = true ∨ c = '.' := by
  intro c hc
  cases h with
  | whole _ hds => exact Or.inl (hds c hc)
  | point _ hds _ hes =>
    rcases List.mem_append.mp hc with hc | hc
    · exact Or.inl (hds c hc)
    · exact (List.mem_cons.mp hc).symm.imp_left (hes c)

theorem unsigned?_eq_some {cs t rest : List Char} (h : unsigned? cs = some (t, rest)) :
    Unsigned t ∧ endsWord rest = true := by
  simp only [unsigned?] at h
  by_cases hwhole : cs.takeWhile isDigit = []
  · simp [hwhole] at h
  · simp only [if_neg hwhole] at h
    cases hpoint : (fraction? (cs.dropWhile isDigit)).filter (endsWord ·.2) with
    | none =>
      simp only [hpoint] at h
      by_cases hafter : endsWord (cs.dropWhile isDigit) = true
      · obtain ⟨rfl, rfl⟩ : cs.takeWhile isDigit = t ∧ cs.dropWhile isDigit = rest := by
          simpa [hafter] using h
        exact ⟨.whole hwhole fun c hc ↦ List.mem_takeWhile_imp hc, hafter⟩
      · simp [hafter] at h
    | some r =>
      obtain ⟨fraction, after⟩ := r
      obtain ⟨rfl, rfl⟩ : cs.takeWhile isDigit ++ fraction = t ∧ after = rest := by
        simpa [hpoint] using h
      obtain ⟨hfraction, hends⟩ := Option.filter_eq_some_iff.mp hpoint
      unfold fraction? at hfraction
      split at hfraction
      · rename_i es _
        cases hes : es.takeWhile isDigit with
        | nil => simp [hes] at hfraction
        | cons d ds =>
          obtain ⟨rfl, -⟩ : '.' :: d :: ds = fraction ∧ _ := by simpa [hes] using hfraction
          refine ⟨.point hwhole (fun c hc ↦ List.mem_takeWhile_imp hc) (by simp) fun c hc ↦ ?_,
            hends⟩
          exact List.mem_takeWhile_imp (hes ▸ hc)
      · simp at hfraction

/-- A number is found where digits make up a word; what follows decides only how long it is. -/
theorem unsigned?_isSome_iff {cs : List Char} :
    (unsigned? cs).isSome = true ↔ ∃ ds rest, ds ≠ [] ∧ (∀ c ∈ ds, isDigit c = true) ∧
      endsWord rest = true ∧ cs = ds ++ rest := by
  constructor
  · intro h
    obtain ⟨⟨t, rest⟩, hread⟩ := Option.isSome_iff_exists.mp h
    obtain ⟨hdigits, hends⟩ := unsigned?_eq_some hread
    obtain ⟨rfl, -⟩ := unsigned?_append hread
    cases hdigits with
    | whole hne hds => exact ⟨t, rest, hne, hds, hends, rfl⟩
    | @point ds es hne hds => exact ⟨ds, _, hne, hds, endsWord_point (es ++ rest), by simp⟩
  · rintro ⟨ds, rest, hne, hds, hends, rfl⟩
    exact unsigned?_isSome_of_digits hne hds hends

theorem Unsigned.unsigned?_isSome {t rest : List Char} (h : Unsigned t)
    (hends : endsWord rest = true) : (unsigned? (t ++ rest)).isSome = true := by
  cases h with
  | whole hne hds => exact unsigned?_isSome_of_digits hne hds hends
  | @point ds es hne hds =>
    rw [List.append_assoc]
    exact unsigned?_isSome_of_digits hne hds (endsWord_point (es ++ rest))

/-- A word with more text behind it begins with a number only if it is digits throughout. -/
theorem unsigned?_word_isSome_iff {word rest : List Char} (hne : word ≠ [])
    (hword : ∀ c ∈ word, isWord c = true) (hends : endsWord rest = true) :
    (unsigned? (word ++ rest)).isSome = true ↔ ∀ c ∈ word, isDigit c = true := by
  constructor
  · intro h
    obtain ⟨ds, more, -, hds, hmore, heq⟩ := unsigned?_isSome_iff.mp h
    rcases List.append_eq_append_iff.mp heq with ⟨extra, rfl, -⟩ | ⟨extra, rfl, rfl⟩
    · exact fun c hc ↦ hds c (List.mem_append_left extra hc)
    · -- The digits end inside the word, so its next character follows them.
      cases extra with
      | nil => simpa using hds
      | cons c extra => simp [endsWord, hword c (by simp)] at hmore
  · exact fun hdigits ↦ unsigned?_isSome_of_digits hne hdigits hends

end Criteria.Token
