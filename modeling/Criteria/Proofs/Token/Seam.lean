import Criteria.Proofs.Text.Class
import Criteria.Proofs.Token.Shape

/-!
Lexemes in context. What follows a lexeme may be replaced by anything that begins with a blank or a
closing parenthesis, and the lexeme stays the same. It stays so too when the text behind it is cut
off, at once or further on; so by itself it is read as one lexeme.
-/

set_option autoImplicit false
set_option relaxedAutoImplicit false

namespace Criteria.Token

open Text

/-- Whether a character ends the lexeme before it, whatever that is. -/
def Closes (c : Char) : Prop :=
  isBlank c = true ∨ c = ')'

/-- A text that may follow any lexeme: it is empty, or begins with a blank or a closing
parenthesis. -/
def Seam (tail : List Char) : Prop :=
  ∀ c ∈ tail.head?, Closes c

theorem Seam.nil : Seam [] := by
  simp [Seam]

theorem Seam.cons {c : Char} (h : Closes c) (tail : List Char) : Seam (c :: tail) := by
  simpa [Seam] using h

/-- A class without blanks and without the closing parenthesis holds no character that closes. -/
theorem Closes.not_mem {p : Char → Bool} {c : Char} (h : Closes c)
    (hblank : isBlank c = true → p c = false) (hparen : p ')' = false) : p c = false := by
  rcases h with h | rfl
  · exact hblank h
  · exact hparen

theorem Closes.isWord {c : Char} (h : Closes c) : isWord c = false :=
  h.not_mem isWord_eq_false_of_isBlank (by decide)

theorem Closes.isDigit {c : Char} (h : Closes c) : isDigit c = false := by
  rw [Bool.eq_false_iff]
  intro hdigit
  have hword := isWord_of_isDigit hdigit
  rw [h.isWord] at hword
  exact Bool.false_ne_true hword

theorem Closes.ne {c d : Char} (h : Closes c) (hblank : isBlank d = false) (hparen : d ≠ ')') :
    c ≠ d := by
  rintro rfl
  rcases h with h | h
  · rw [hblank] at h
    exact Bool.false_ne_true h
  · exact hparen h

/-- A reading of the head of a text, when more text follows. -/
def extend (tail : List Char) (r : List Char × List Char) : List Char × List Char :=
  (r.1, r.2 ++ tail)

variable {tail : List Char}

theorem takeWhile_seam (h : Seam tail) {p : Char → Bool} (hp : ∀ c, Closes c → p c = false)
    (cs : List Char) : (cs ++ tail).takeWhile p = cs.takeWhile p := by
  induction cs with
  | nil =>
    cases tail with
    | nil => rfl
    | cons c tail => simp [hp c (h c rfl)]
  | cons c cs ih => simp [List.takeWhile_cons, ih]

theorem dropWhile_seam (h : Seam tail) {p : Char → Bool} (hp : ∀ c, Closes c → p c = false)
    (cs : List Char) : (cs ++ tail).dropWhile p = cs.dropWhile p ++ tail := by
  induction cs with
  | nil =>
    cases tail with
    | nil => rfl
    | cons c tail => simp [hp c (h c rfl)]
  | cons c cs ih =>
    by_cases hc : p c = true
    · simp [hc, ih]
    · simp [hc]

theorem endsWord_seam (h : Seam tail) (cs : List Char) : endsWord (cs ++ tail) = endsWord cs := by
  cases cs with
  | nil =>
    cases tail with
    | nil => rfl
    | cons c tail => simp [endsWord, (h c rfl).isWord]
  | cons c cs => rfl

/-! ### Each class of lexemes with more text behind it -/

/-- A text literal does not depend on what follows it. An unclosed one stays so unless a quote
follows. -/
theorem quoted?_seam {cs : List Char} (hcs : cs ≠ [])
    (hquote : '\'' ∉ tail ∨ cs.head? ≠ some '\'' ∨ (quoted? cs).isSome) :
    quoted? (cs ++ tail) = (quoted? cs).map (extend tail) := by
  obtain ⟨c, cs, rfl⟩ := List.exists_cons_of_ne_nil hcs
  by_cases hc : c = '\''
  · subst hc
    by_cases hclosed : '\'' ∈ cs
    · obtain ⟨front, back, rfl, hfront⟩ := List.eq_append_cons_of_mem hclosed
      rw [List.cons_append, List.append_assoc, List.cons_append, quoted?_of_closed hfront,
        quoted?_of_closed hfront]
      rfl
    · rw [quoted?_of_not_mem hclosed] at hquote ⊢
      have htail : '\'' ∉ tail := by simpa using hquote
      rw [List.cons_append, quoted?_of_not_mem (by simp [hclosed, htail])]
      rfl
  · rw [List.cons_append, quoted?_of_ne hc, quoted?_of_ne hc]
    rfl

theorem paren?_seam {cs : List Char} (hcs : cs ≠ []) :
    paren? (cs ++ tail) = (paren? cs).map fun r ↦ (r.1, extend tail r.2) := by
  obtain ⟨c, cs, rfl⟩ := List.exists_cons_of_ne_nil hcs
  rw [List.cons_append]
  unfold paren?
  split <;> simp_all [extend]

theorem comparison?_seam (h : Seam tail) {cs : List Char} (hcs : cs ≠ []) :
    comparison? (cs ++ tail) = (comparison? cs).map (extend tail) := by
  obtain ⟨c, cs, rfl⟩ := List.exists_cons_of_ne_nil hcs
  have hsingle (hhead : (cs ++ tail).head? ≠ some '=') (hcs : cs.head? ≠ some '=') :
      comparison? (c :: (cs ++ tail)) = (comparison? (c :: cs)).map (extend tail) := by
    rw [comparison?_single hhead, comparison?_single hcs]
    by_cases hc : c ∈ ['>', '<', '='] <;> simp [hc, extend]
  rw [List.cons_append]
  cases cs with
  | nil =>
    have htail : tail.head? ≠ some '=' := fun heq ↦ (h '=' heq).ne (by decide) (by decide) rfl
    exact hsingle htail (by simp)
  | cons d cs =>
    by_cases hd : d = '='
    · subst hd
      by_cases hc : c ∈ ['>', '<', '!', '=']
      · rw [List.cons_append, comparison?_pair hc, comparison?_pair hc]
        rfl
      · rw [comparison?_of_not_mem hc, comparison?_of_not_mem hc]
        rfl
    · exact hsingle (by simpa using hd) (by simpa using hd)

theorem word?_seam (h : Seam tail) (cs : List Char) :
    word? (cs ++ tail) = (word? cs).map (extend tail) := by
  simp only [word?, takeWhile_seam h (fun _ hd ↦ hd.isWord),
    dropWhile_seam h (fun _ hd ↦ hd.isWord)]
  by_cases hword : cs.takeWhile isWord = [] <;> simp [hword, extend]

theorem keyword?_seam (h : Seam tail) (cs : List Char) :
    keyword? (cs ++ tail) = (keyword? cs).map (extend tail) := by
  apply Option.ext
  rintro ⟨word, rest⟩
  rw [keyword?_eq_some_iff, word?_seam h]
  simp only [Option.map_eq_some_iff, Prod.exists, keyword?_eq_some_iff, extend, Prod.mk.injEq]
  constructor
  · rintro ⟨hword, _, r, hr, rfl, rfl⟩
    exact ⟨_, r, ⟨hword, hr⟩, rfl, rfl⟩
  · rintro ⟨_, r, ⟨hword, hr⟩, rfl, rfl⟩
    exact ⟨hword, _, r, hr, rfl, rfl⟩

theorem fraction?_seam (h : Seam tail) (cs : List Char) :
    fraction? (cs ++ tail) = (fraction? cs).map (extend tail) := by
  cases cs with
  | nil =>
    cases tail with
    | nil => rfl
    | cons d tail =>
      have hd : d ≠ '.' := (h d rfl).ne (by decide) (by decide)
      simp [fraction?, hd]
  | cons c cs =>
    by_cases hc : c = '.'
    · subst hc
      simp only [List.cons_append, fraction?, takeWhile_seam h (fun _ hd ↦ hd.isDigit),
        dropWhile_seam h (fun _ hd ↦ hd.isDigit)]
      cases cs.takeWhile isDigit <;> rfl
    · simp [fraction?, hc]

theorem unsigned?_seam (h : Seam tail) (cs : List Char) :
    unsigned? (cs ++ tail) = (unsigned? cs).map (extend tail) := by
  have hends :
      (fun r ↦ endsWord (extend tail r).2) = fun r : List Char × List Char ↦ endsWord r.2 := by
    funext r
    exact endsWord_seam h r.2
  have hfilter (o : Option (List Char × List Char)) :
      (o.map (extend tail)).filter (endsWord ·.2) =
        (o.filter (endsWord ·.2)).map (extend tail) := by
    rw [Option.filter_map, Function.comp_def, hends]
  simp only [unsigned?, takeWhile_seam h (fun _ hd ↦ hd.isDigit),
    dropWhile_seam h (fun _ hd ↦ hd.isDigit), fraction?_seam h, endsWord_seam h, hfilter]
  by_cases hwhole : cs.takeWhile isDigit = []
  · simp [hwhole]
  · simp only [if_neg hwhole]
    cases (fraction? (cs.dropWhile isDigit)).filter (endsWord ·.2) with
    | none =>
      by_cases hafter : endsWord (cs.dropWhile isDigit) = true <;> simp [hafter, extend]
    | some r => simp [extend]

theorem number?_seam (h : Seam tail) {cs : List Char} (hcs : cs ≠ []) :
    number? (cs ++ tail) = (number? cs).map (extend tail) := by
  obtain ⟨c, cs, rfl⟩ := List.exists_cons_of_ne_nil hcs
  by_cases hc : c = '-'
  · subst hc
    simp only [List.cons_append, number?, unsigned?_seam h, Option.map_map]
    rfl
  · have hnumber (ds : List Char) : number? (c :: ds) = unsigned? (c :: ds) := by
      simp [number?, hc]
    rw [List.cons_append, hnumber, hnumber]
    exact unsigned?_seam h (c :: cs)

/-! ### Any lexeme -/

theorem lexeme?_eq_or (cs : List Char) :
    lexeme? cs = ((quoted? cs).map (.text, ·)).or ((paren? cs).or
      (((comparison? cs).map (.comparison, ·)).or (((keyword? cs).map (.connective, ·)).or
        (((number? cs).map (.number, ·)).or ((word? cs).map (.identifier, ·)))))) := by
  simp only [lexeme?, Option.orElse_eq_orElse, Option.orElse_eq_or]

/-- By which class the lexeme at the head of a text is read. A name is read where there is neither a
keyword nor a number. -/
inductive ReadAs (cs : List Char) : Kind → List Char → List Char → Prop
  | text {text rest : List Char} (h : quoted? cs = some (text, rest)) : ReadAs cs .text text rest
  | leftParen (rest : List Char) : ReadAs cs .leftParen ['('] rest
  | rightParen (rest : List Char) : ReadAs cs .rightParen [')'] rest
  | comparison {text rest : List Char} (h : comparison? cs = some (text, rest)) :
    ReadAs cs .comparison text rest
  | connective {text rest : List Char} (h : keyword? cs = some (text, rest)) :
    ReadAs cs .connective text rest
  | number {text rest : List Char} (h : number? cs = some (text, rest)) :
    ReadAs cs .number text rest
  | identifier {text rest : List Char} (hkeyword : keyword? cs = none) (hnumber : number? cs = none)
    (h : word? cs = some (text, rest)) : ReadAs cs .identifier text rest

theorem readAs_of_lexeme? {cs text rest : List Char} {kind : Kind}
    (h : lexeme? cs = some (kind, text, rest)) : ReadAs cs kind text rest := by
  simp only [lexeme?_eq_or, Option.or_eq_some_iff, Option.map_eq_some_iff, Option.map_eq_none_iff,
    Prod.mk.injEq, Prod.exists] at h
  rcases h with ⟨_, _, h, rfl, rfl, rfl⟩ | ⟨_, h | ⟨_, ⟨_, _, h, rfl, rfl, rfl⟩ |
    ⟨_, ⟨_, _, h, rfl, rfl, rfl⟩ | ⟨hkeyword, ⟨_, _, h, rfl, rfl, rfl⟩ |
    ⟨hnumber, _, _, h, rfl, rfl, rfl⟩⟩⟩⟩⟩
  · exact .text h
  · unfold paren? at h
    split at h <;> simp at h <;> obtain ⟨rfl, rfl, rfl⟩ := h
    · exact .leftParen _
    · exact .rightParen _
  · exact .comparison h
  · exact .connective h
  · exact .number h
  · exact .identifier hkeyword hnumber h

/-- Only a text literal begins with a quote. -/
theorem lexeme?_of_quote (cs : List Char) :
    lexeme? ('\'' :: cs) = (quoted? ('\'' :: cs)).map (.text, ·) := by
  have hdigit : isDigit '\'' = false := by decide
  have hword : isWord '\'' = false := by decide
  have hnumber : number? ('\'' :: cs) = none := by simp [number?, unsigned?, hdigit]
  have hname : word? ('\'' :: cs) = none := by simp [word?, hword]
  have hrest : paren? ('\'' :: cs) = none ∧ comparison? ('\'' :: cs) = none ∧
      keyword? ('\'' :: cs) = none := ⟨rfl, rfl, rfl⟩
  simp [lexeme?_eq_or, hrest, hnumber, hname]

/-- What follows a lexeme does not change it, if it begins with a blank or a closing parenthesis. -/
theorem lexeme?_seam (h : Seam tail) {cs : List Char} (hcs : cs ≠ [])
    (hquote : '\'' ∉ tail ∨ (lexeme? cs).isSome) :
    lexeme? (cs ++ tail) = (lexeme? cs).map fun r ↦ (r.1, extend tail r.2) := by
  have hclosed : '\'' ∉ tail ∨ cs.head? ≠ some '\'' ∨ (quoted? cs).isSome := by
    refine hquote.imp_right fun hsome ↦ ?_
    obtain ⟨c, cs, rfl⟩ := List.exists_cons_of_ne_nil hcs
    by_cases hc : c = '\''
    · subst hc
      rw [lexeme?_of_quote, Option.isSome_map] at hsome
      exact Or.inr hsome
    · exact Or.inl (by simpa using hc)
  rw [lexeme?_eq_or, lexeme?_eq_or, quoted?_seam hcs hclosed, paren?_seam hcs,
    comparison?_seam h hcs, keyword?_seam h, number?_seam h hcs, word?_seam h]
  simp only [Option.map_or, Option.map_map, Function.comp_def]

/-- A character with which neither a text literal, a parenthesis nor a comparison begins. -/
def Plain (c : Char) : Prop :=
  c ∉ ['\'', '(', ')', '>', '<', '!', '=']

theorem plain_of_isWord {c : Char} (h : isWord c = true) : Plain c := by
  intro hc
  have hall : (['\'', '(', ')', '>', '<', '!', '='].all fun d ↦ !isWord d) = true := by decide
  have hout := List.all_eq_true.mp hall c hc
  rw [h] at hout
  exact Bool.false_ne_true hout

theorem lexeme?_of_plain {c : Char} (h : Plain c) (cs : List Char) :
    lexeme? (c :: cs) = ((keyword? (c :: cs)).map (.connective, ·)).or
      (((number? (c :: cs)).map (.number, ·)).or ((word? (c :: cs)).map (.identifier, ·))) := by
  simp only [Plain, List.mem_cons, List.not_mem_nil, or_false, not_or] at h
  obtain ⟨hquote, hopen, hclose, hsigns⟩ := h
  have hquoted : quoted? (c :: cs) = none := quoted?_of_ne hquote cs
  have hparen : paren? (c :: cs) = none := by simp [paren?, hopen, hclose]
  have hcomparison : comparison? (c :: cs) = none := comparison?_of_not_mem (by simp [hsigns]) cs
  simp [lexeme?_eq_or, hquoted, hparen, hcomparison]

theorem number?_of_ne {c : Char} (h : c ≠ '-') (cs : List Char) :
    number? (c :: cs) = unsigned? (c :: cs) := by
  simp [number?, h]

/-! ### Lexemes cut out of their text -/

/-- What may take the place of the text behind a lexeme: nothing, or a text that begins with the
same character, unless that is a point. -/
def Cut (rest back : List Char) : Prop :=
  ∀ c ∈ back.head?, rest.head? = some c ∧ c ≠ '.'

theorem Cut.nil (rest : List Char) : Cut rest [] := by
  simp [Cut]

section Cut

variable {text rest back : List Char}

theorem Cut.endsWord (h : Cut rest back) (hends : endsWord rest = true) :
    endsWord back = true := by
  cases back with
  | nil => rfl
  | cons c back =>
    obtain ⟨hhead, -⟩ := h c rfl
    obtain ⟨tail, rfl⟩ := List.head?_eq_some_iff.mp hhead
    exact hends

theorem Cut.head?_ne (h : Cut rest back) {c : Char} (hrest : rest.head? ≠ some c) :
    back.head? ≠ some c :=
  fun heq ↦ hrest (h c heq).1

theorem Cut.head?_ne_point (h : Cut rest back) : back.head? ≠ some '.' :=
  fun heq ↦ (h '.' heq).2 rfl

/-- The digits of a number are read as that number, with or without a sign. -/
theorem lexeme?_append_of_unsigned (h : Unsigned text) (hends : endsWord back = true)
    (hpoint : back.head? ≠ some '.') :
    lexeme? (text ++ back) = some (.number, text, back) ∧
      lexeme? ('-' :: (text ++ back)) = some (.number, '-' :: text, back) := by
  obtain ⟨d, ds, rfl, hd⟩ := h.exists_cons
  have hne {c : Char} (hc : isDigit c = false) : d ≠ c := by
    rintro rfl
    rw [hc] at hd
    exact Bool.false_ne_true hd
  have hread := unsigned?_append_of_unsigned h hends hpoint
  rw [List.cons_append] at hread ⊢
  constructor
  · rw [lexeme?_of_plain (plain_of_isWord (isWord_of_isDigit hd)),
      keyword?_of_ne (hne (by decide)) (hne (by decide)), number?_of_ne (hne (by decide)), hread]
    rfl
  · rw [lexeme?_of_plain (by unfold Plain; decide), keyword?_of_ne (by decide) (by decide),
      number?, hread]
    rfl

theorem lexeme?_of_unsigned (h : Unsigned text) :
    lexeme? text = some (.number, text, []) ∧
      lexeme? ('-' :: text) = some (.number, '-' :: text, []) := by
  simpa using @lexeme?_append_of_unsigned text [] h rfl (by simp)

/-- A word begins with a number only if it is digits throughout. -/
theorem number?_word_isSome_iff {word : List Char} (hne : word ≠ [])
    (hword : ∀ c ∈ word, isWord c = true) (hends : endsWord rest = true) :
    (number? (word ++ rest)).isSome = true ↔ ∀ c ∈ word, isDigit c = true := by
  obtain ⟨d, ds, rfl⟩ := List.exists_cons_of_ne_nil hne
  have hd : d ≠ '-' := by
    rintro rfl
    exact absurd (hword '-' List.mem_cons_self) (by decide)
  rw [List.cons_append, number?_of_ne hd, ← List.cons_append]
  exact unsigned?_word_isSome_iff hne hword hends

/-- A word that is neither a keyword nor a number in its place is neither when it is cut out. -/
theorem lexeme?_of_word {cs word : List Char} (hword : word? cs = some (word, rest))
    (hkeyword : keyword? cs = none) (hnumber : number? cs = none) (hcut : Cut rest back) :
    lexeme? (word ++ back) = some (.identifier, word, back) := by
  obtain ⟨hne, hall, hends, rfl⟩ := word?_eq_some_iff.mp hword
  have hself : word? (word ++ back) = some (word, back) :=
    word?_eq_some_iff.mpr ⟨hne, hall, hcut.endsWord hends, rfl⟩
  have hkey : keyword? (word ++ back) = none := by
    rw [Option.eq_none_iff_forall_ne_some]
    rintro ⟨key, more⟩ h
    obtain ⟨hkey, h⟩ := keyword?_eq_some_iff.mp h
    obtain rfl : word = key := by simpa [hself] using congrArg (Option.map Prod.fst) h
    rw [keyword?_eq_some_iff.mpr ⟨hkey, hword⟩] at hkeyword
    exact Option.some_ne_none _ hkeyword
  have hnum : number? (word ++ back) = none := by
    rw [← Option.not_isSome_iff_eq_none,
      number?_word_isSome_iff hne hall (hcut.endsWord hends),
      ← number?_word_isSome_iff hne hall hends, Option.not_isSome_iff_eq_none]
    exact hnumber
  obtain ⟨d, ds, rfl⟩ := List.exists_cons_of_ne_nil hne
  rw [List.cons_append] at hkey hnum hself ⊢
  rw [lexeme?_of_plain (plain_of_isWord (hall d List.mem_cons_self)), hkey, hnum, hself]
  rfl

theorem signed_of_number? {cs text rest : List Char} (h : number? cs = some (text, rest)) :
    Unsigned text ∨ ∃ digits, text = '-' :: digits ∧ Unsigned digits := by
  unfold number? at h
  split at h
  · simp only [Option.map_eq_some_iff, Prod.mk.injEq, Prod.exists] at h
    obtain ⟨digits, _, hdigits, rfl, -⟩ := h
    exact Or.inr ⟨digits, rfl, (unsigned?_eq_some hdigits).1⟩
  · exact Or.inl (unsigned?_eq_some h).1

theorem endsWord_of_number? {cs text rest : List Char} (h : number? cs = some (text, rest)) :
    endsWord rest = true := by
  unfold number? at h
  split at h
  · simp only [Option.map_eq_some_iff, Prod.mk.injEq, Prod.exists] at h
    obtain ⟨digits, _, hdigits, -, rfl⟩ := h
    exact (unsigned?_eq_some hdigits).2
  · exact (unsigned?_eq_some h).2

theorem lexeme?_of_number {cs : List Char} (h : number? cs = some (text, rest))
    (hcut : Cut rest back) : lexeme? (text ++ back) = some (.number, text, back) := by
  have hends := hcut.endsWord (endsWord_of_number? h)
  rcases signed_of_number? h with hdigits | ⟨digits, rfl, hdigits⟩
  · exact (lexeme?_append_of_unsigned hdigits hends hcut.head?_ne_point).1
  · exact (lexeme?_append_of_unsigned hdigits hends hcut.head?_ne_point).2

theorem lexeme?_of_quoted {cs : List Char} (h : quoted? cs = some (text, rest))
    (back : List Char) : lexeme? (text ++ back) = some (.text, text, back) := by
  obtain ⟨front, hfront, rfl⟩ := quoted?_eq_some h
  rw [List.cons_append, List.append_assoc, List.singleton_append, lexeme?_of_quote,
    quoted?_of_closed hfront back]
  rfl

theorem lexeme?_of_sign {c : Char} {cs : List Char} {r : List Char × List Char}
    (hc : c ∈ ['>', '<', '!', '=']) (h : comparison? (c :: cs) = some r) :
    lexeme? (c :: cs) = some (.comparison, r) := by
  have hquoted : quoted? (c :: cs) = none := by
    refine quoted?_of_ne ?_ cs
    rintro rfl
    exact absurd hc (by decide)
  have hparen : paren? (c :: cs) = none := by
    simp only [List.mem_cons, List.not_mem_nil, or_false] at hc
    rcases hc with rfl | rfl | rfl | rfl <;> rfl
  rw [lexeme?_eq_or, hquoted, hparen, h]
  rfl

/-- A sign without an equality sign behind it stays so. -/
theorem lexeme?_of_comparison {cs : List Char} (h : comparison? cs = some (text, rest))
    (hcut : Cut rest back) : lexeme? (text ++ back) = some (.comparison, text, back) := by
  rcases comparison?_eq_some h with ⟨c, hc, rfl⟩ | ⟨⟨c, hc, rfl⟩, hhead⟩
  · exact lexeme?_of_sign hc (comparison?_pair hc back)
  · have hsign : c ∈ ['>', '<', '!', '='] := by
      simp only [List.mem_cons, List.not_mem_nil, or_false] at hc
      rcases hc with rfl | rfl | rfl <;> simp
    have hsingle := comparison?_single (hcut.head?_ne hhead) c
    rw [if_pos hc] at hsingle
    exact lexeme?_of_sign hsign hsingle

theorem lexeme?_of_keyword {cs : List Char} (h : keyword? cs = some (text, rest))
    (hcut : Cut rest back) : lexeme? (text ++ back) = some (.connective, text, back) := by
  obtain ⟨hkeyword, hword⟩ := keyword?_eq_some_iff.mp h
  obtain ⟨-, hall, hends, -⟩ := word?_eq_some_iff.mp hword
  have hkey := keyword?_of_keyword hkeyword back
  rw [if_pos (hcut.endsWord hends)] at hkey
  obtain ⟨d, ds, rfl⟩ := List.exists_cons_of_ne_nil hkeyword.ne_nil
  rw [List.cons_append] at hkey ⊢
  rw [lexeme?_of_plain (plain_of_isWord (hall d List.mem_cons_self)), hkey]
  rfl

theorem exists_quotes {cs text rest : List Char} (h : lexeme? cs = some (.text, text, rest)) :
    ∃ front, '\'' ∉ front ∧ text = '\'' :: (front ++ ['\'']) := by
  cases readAs_of_lexeme? h with
  | text h => exact quoted?_eq_some h

theorem exists_digits {cs text rest : List Char}
    (h : lexeme? cs = some (.number, text, rest)) :
    Unsigned text ∨ ∃ digits, text = '-' :: digits ∧ Unsigned digits := by
  cases readAs_of_lexeme? h with
  | number h => exact signed_of_number? h

/-- A lexeme stays the same when nothing follows it, or a text that begins as the one before did,
unless with a point. -/
theorem lexeme?_cut {cs : List Char} {kind : Kind} (h : lexeme? cs = some (kind, text, rest))
    (hcut : Cut rest back) : lexeme? (text ++ back) = some (kind, text, back) := by
  cases readAs_of_lexeme? h with
  | text h => exact lexeme?_of_quoted h back
  | leftParen => rfl
  | rightParen => rfl
  | comparison h => exact lexeme?_of_comparison h hcut
  | connective h => exact lexeme?_of_keyword h hcut
  | number h => exact lexeme?_of_number h hcut
  | identifier hkeyword hnumber h => exact lexeme?_of_word h hkeyword hnumber hcut

/-- A lexeme is read as one lexeme by itself too. -/
theorem lexeme?_self {cs : List Char} {kind : Kind} (h : lexeme? cs = some (kind, text, rest)) :
    lexeme? text = some (kind, text, []) := by
  simpa using lexeme?_cut h (.nil rest)

end Cut

end Criteria.Token
