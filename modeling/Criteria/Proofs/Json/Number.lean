import Criteria.Json.Token
import Criteria.Proofs.Decimal.Digits

/-!
Numbers as JSON writes them. An integer is its digits; any other number has a point or a power of
ten, and what it spells is rounded to it. Where something else follows, the number ends.
-/

set_option autoImplicit false
set_option relaxedAutoImplicit false

namespace Criteria.Json

open Binary64 (magnitude isNegative)
open Decimal (Spells digitCount isAsciiDigit ofDigits toFloat)

/-! ### The parts of a number -/

/-- A text before which every number ends: it goes on with no digit, point or power. -/
def EndsNumber (rest : List Char) : Prop :=
  ∀ c ∈ rest.head?, isAsciiDigit c = false ∧ c ≠ '.' ∧ c ≠ 'e' ∧ c ≠ 'E'

/-- The digits before the point, and those behind it if there is one. -/
structure IsNumeral (whole : List Char) (fraction : Option (List Char)) : Prop where
  whole_ne_nil : whole ≠ []
  whole_digits : ∀ c ∈ whole, isAsciiDigit c = true
  isWhole : isWhole whole = true
  fraction_ne_nil : ∀ digits ∈ fraction, digits ≠ []
  fraction_digits : ∀ digits ∈ fraction, ∀ c ∈ digits, isAsciiDigit c = true

/-- The point and the digits behind it. -/
def fractionChars : Option (List Char) → List Char
  | none => []
  | some digits => '.' :: digits

/-- A power of ten with its sign. -/
def powerChars : Option Int → List Char
  | none => []
  | some p => 'e' :: (if p < 0 then '-' else '+') :: Nat.toDigits 10 p.natAbs

variable {rest : List Char}

theorem EndsNumber.powerChars (h : EndsNumber rest) (power : Option Int) :
    ∀ c ∈ (powerChars power ++ rest).head?, isAsciiDigit c = false ∧ c ≠ '.' := by
  cases power with
  | none => exact fun c hc ↦ ⟨(h c hc).1, (h c hc).2.1⟩
  | some p =>
    rintro c ⟨⟩
    decide

theorem splitDigits?_append {digits : List Char} (hne : digits ≠ [])
    (hdigits : ∀ c ∈ digits, isAsciiDigit c = true)
    (hrest : ∀ c ∈ rest.head?, isAsciiDigit c = false) :
    splitDigits? (digits ++ rest) = some (digits, rest) := by
  obtain ⟨htake, hdrop⟩ := Decimal.takeWhile_append_of_head hdigits hrest
  rw [splitDigits?, htake, hdrop, if_neg hne]

theorem splitFraction?_append {whole : List Char} {fraction : Option (List Char)}
    (h : IsNumeral whole fraction)
    (hrest : ∀ c ∈ rest.head?, isAsciiDigit c = false ∧ c ≠ '.') :
    splitFraction? (fractionChars fraction ++ rest) = some (fraction, rest) := by
  cases fraction with
  | none =>
    unfold splitFraction?
    split
    · rename_i hpoint
      rw [show rest = _ from hpoint] at hrest
      exact absurd rfl (hrest '.' rfl).2
    · rfl
  | some digits =>
    have hdigits := splitDigits?_append (h.fraction_ne_nil digits rfl)
      (h.fraction_digits digits rfl) fun c hc ↦ (hrest c hc).1
    rw [fractionChars, List.cons_append, splitFraction?, hdigits, Option.map_some]

theorem splitSign_sign (p : Int) (cs : List Char) :
    Decimal.splitSign ((if p < 0 then '-' else '+') :: cs) = (decide (p < 0), cs) := by
  by_cases hp : p < 0
  · rw [if_pos hp, Decimal.splitSign, decide_eq_true hp]
  · rw [if_neg hp, Decimal.splitSign, decide_eq_false hp]

theorem splitPower?_append (hrest : EndsNumber rest) (power : Option Int) :
    splitPower? (powerChars power ++ rest) = some (power, rest) := by
  cases power with
  | none =>
    cases rest with
    | nil => rfl
    | cons c rest =>
      obtain ⟨-, -, hlower, hupper⟩ := hrest c rfl
      exact if_neg (not_or.mpr ⟨hlower, hupper⟩)
  | some p =>
    have hdigits := splitDigits?_append (Nat.toDigits_ne_nil (b := 10) (n := p.natAbs))
      (fun _ ↦ Decimal.isAsciiDigit_of_mem_toDigits) fun c hc ↦ (hrest c hc).1
    have hvalue : (if decide (p < 0) = true then -(p.natAbs : Int) else p.natAbs) = p := by
      by_cases hp : p < 0
      · rw [if_pos (decide_eq_true hp)]
        omega
      · rw [if_neg (by simpa using hp)]
        omega
    rw [powerChars, List.cons_append, List.cons_append, splitPower?, if_pos (Or.inl rfl),
      splitSign_sign, hdigits]
    simp only [Option.map_some, Decimal.ofDigits_toDigits, hvalue]

/-- The longest number at the head of a text is taken from it. -/
theorem unsigned?_append {whole : List Char} {fraction : Option (List Char)}
    (h : IsNumeral whole fraction) (power : Option Int) (hrest : EndsNumber rest)
    (negative : Bool) :
    unsigned? negative (whole ++ (fractionChars fraction ++ (powerChars power ++ rest))) =
      some (.scalar (some (ofNumeral negative whole fraction power) |>.filter isInRange),
        rest) := by
  have hpower := hrest.powerChars power
  have hfraction : ∀ c ∈ (fractionChars fraction ++ (powerChars power ++ rest)).head?,
      isAsciiDigit c = false := by
    cases fraction with
    | none => exact fun c hc ↦ (hpower c hc).1
    | some digits =>
      rintro c ⟨⟩
      decide
  have hwhole := splitDigits?_append h.whole_ne_nil h.whole_digits hfraction
  simp [unsigned?, hwhole, h.isWhole, splitFraction?_append h hpower, splitPower?_append hrest]

/-- A text that begins with a digit begins with a number. -/
theorem token?_of_digit {c : Char} (hc : isAsciiDigit c = true) (cs : List Char) :
    token? (c :: cs) = unsigned? false (c :: cs) := by
  unfold token?
  split
  case h_12 => rfl
  all_goals
    rename_i heq
    cases heq
    exact absurd hc (by decide)

theorem token?_append {whole : List Char} {fraction : Option (List Char)}
    (h : IsNumeral whole fraction) (power : Option Int) (hrest : EndsNumber rest)
    (negative : Bool) :
    token? ((if negative then ['-'] else []) ++
      (whole ++ (fractionChars fraction ++ (powerChars power ++ rest)))) =
        some (.scalar (some (ofNumeral negative whole fraction power) |>.filter isInRange),
          rest) := by
  cases negative with
  | true => exact unsigned?_append h power hrest true
  | false =>
    have hunsigned := unsigned?_append h power hrest false
    obtain ⟨c, cs, rfl⟩ := List.exists_cons_of_ne_nil h.whole_ne_nil
    exact (token?_of_digit (h.whole_digits c List.mem_cons_self) _).trans hunsigned

/-! ### Integers -/

theorem isWhole_of_head? {cs : List Char} (h : cs.head? ≠ some '0') : isWhole cs = true := by
  unfold isWhole
  split
  · exact absurd rfl h
  · rfl

theorem isWhole_singleton (c : Char) : isWhole [c] = true := by
  unfold isWhole
  split
  · rename_i heq
    exact absurd (List.cons.inj heq).2 (List.cons_ne_nil _ _).symm
  · rfl

theorem isNumeral_toDigits (n : Nat) : IsNumeral (Nat.toDigits 10 n) none where
  whole_ne_nil := Nat.toDigits_ne_nil
  whole_digits _ := Decimal.isAsciiDigit_of_mem_toDigits
  isWhole := by
    by_cases hn : n = 0
    · rw [hn]
      rfl
    · exact isWhole_of_head? (Decimal.head?_toDigits hn)
  fraction_ne_nil := by simp
  fraction_digits := by simp

theorem toList_toString (n : Int) :
    (toString n).toList = (if decide (n < 0) then ['-'] else []) ++ Nat.toDigits 10 n.natAbs := by
  cases n with
  | ofNat m =>
    change (String.ofList (Nat.toDigits 10 m)).toList = _
    rw [String.toList_ofList, decide_eq_false (by simp)]
    rfl
  | negSucc m =>
    change ("-" ++ String.ofList (Nat.toDigits 10 (m + 1))).toList = _
    rw [String.toList_append, decide_eq_true (Int.negSucc_lt_zero m)]
    exact congrArg ('-' :: ·) String.toList_ofList

/-- An integer of 64 bits is one token. -/
theorem token?_int {n : Int} (hlow : -(2 ^ 63) ≤ n) (hhigh : n < 2 ^ 64)
    (hrest : EndsNumber rest) :
    token? ((toString n).toList ++ rest) = some (.scalar (some (.int n)), rest) := by
  have htoken := token?_append (isNumeral_toDigits n.natAbs) none hrest (decide (n < 0))
  have hvalue : ofInteger (decide (n < 0)) n.natAbs = .int n := by
    by_cases hn : n < 0
    · have hfits : ¬(n.natAbs = 0 ∨ Nat.pow 2 63 < n.natAbs) := by
        simp only [Nat.pow_eq]
        omega
      rw [ofInteger, if_pos (decide_eq_true hn), if_neg hfits]
      congr 1
      omega
    · have hfits : n.natAbs < Nat.pow 2 64 := by
        simp only [Nat.pow_eq]
        omega
      rw [ofInteger, if_neg (by simpa using hn), if_pos hfits]
      congr 1
      omega
  rw [ofNumeral, Decimal.ofDigits_toDigits, hvalue] at htoken
  rw [toList_toString, List.append_assoc]
  exact htoken

/-! ### Other numbers -/

/-- Characters with a point in them: no zero stands in front of other digits. -/
theorem positionalChars_point {n : Nat} (hn : n ≠ 0) (order : Int) :
    '.' ∈ Layout.positionalChars true (Nat.toDigits 10 n) order ∧
      ((∃ tail, Layout.positionalChars true (Nat.toDigits 10 n) order = '0' :: '.' :: tail) ∨
        (Layout.positionalChars true (Nat.toDigits 10 n) order).head? ≠ some '0') := by
  have hhead := Decimal.head?_toDigits hn
  unfold Layout.positionalChars
  by_cases hsmall : order ≤ 0
  · rw [if_pos hsmall]
    exact ⟨by simp, Or.inl ⟨_, rfl⟩⟩
  · rw [if_neg hsmall]
    by_cases hinside : order.toNat < (Nat.toDigits 10 n).length
    · have htake : (Nat.toDigits 10 n).take order.toNat ≠ [] := by
        simp only [ne_eq, List.take_eq_nil_iff, Nat.toDigits_ne_nil, or_false]
        omega
      rw [if_pos hinside, List.head?_append_of_ne_nil _ htake, List.head?_take,
        if_neg (by omega)]
      exact ⟨by simp, Or.inr hhead⟩
    · rw [if_neg hinside, if_pos rfl, List.append_assoc,
        List.head?_append_of_ne_nil _ Nat.toDigits_ne_nil]
      exact ⟨by simp, Or.inr hhead⟩

theorem isWhole_of_point {whole digits : List Char} (hne : whole ≠ [])
    (hdigits : ∀ c ∈ whole, isAsciiDigit c = true)
    (h : (∃ tail, whole ++ '.' :: digits = '0' :: '.' :: tail) ∨
      (whole ++ '.' :: digits).head? ≠ some '0') : isWhole whole = true := by
  rcases h with ⟨tail, htail⟩ | hhead
  · obtain ⟨c, more, rfl⟩ := List.exists_cons_of_ne_nil hne
    rw [List.cons_append, List.cons.injEq] at htail
    obtain ⟨rfl, hmore⟩ := htail
    cases more with
    | nil => rfl
    | cons d more =>
      obtain rfl : d = '.' := (List.cons.inj hmore).1
      exact absurd (hdigits '.' (by simp)) (by decide)
  · rw [List.head?_append_of_ne_nil _ hne] at hhead
    exact isWhole_of_head? hhead

/-- What is written with a point in it spells a fraction with the same bits. -/
theorem exists_isNumeral_positionalChars {n : Nat} (hn : n ≠ 0) (exponent : Int) :
    ∃ whole digits, Layout.positionalChars true (Nat.toDigits 10 n) (exponent + digitCount n) =
        whole ++ '.' :: digits ∧ IsNumeral whole (some digits) ∧
      Decimal.bits ⟨ofDigits (whole ++ digits), -(digits.length : Int)⟩ =
        Decimal.bits ⟨n, exponent⟩ := by
  obtain ⟨d, hspells, hbits⟩ := Decimal.exists_spells_positionalChars true n exponent
  obtain ⟨hpoint, hhead⟩ := positionalChars_point hn (exponent + digitCount n)
  generalize Layout.positionalChars true (Nat.toDigits 10 n) (exponent + digitCount n) = cs
    at hspells hpoint hhead
  cases hspells with
  | whole hne hdigits => exact absurd (hdigits '.' hpoint) (by decide)
  | @point whole digits hne hwhole hne' hdigits =>
    exact ⟨whole, digits, rfl,
      ⟨hne, hwhole, isWhole_of_point hne hwhole hhead, by simpa using hne',
        by simpa using hdigits⟩, hbits⟩

/-- The digits behind the first one, if there are any. -/
def fractionOf (more : List Char) : Option (List Char) :=
  if more = [] then none else some more

theorem scientificChars_cons (first : Char) (more : List Char) (order : Int) :
    Layout.scientificChars (first :: more) order =
      [first] ++ (fractionChars (fractionOf more) ++ powerChars (some (order - 1))) := by
  cases more with
  | nil => rfl
  | cons second more => simp [Layout.scientificChars, fractionOf, fractionChars, powerChars]

theorem getD_fractionOf (more : List Char) : (fractionOf more).getD [] = more := by
  cases more <;> rfl

/-- One digit stands before the point, and the power of ten makes up for it. -/
theorem exists_isNumeral_scientificChars (n : Nat) (exponent : Int) :
    ∃ whole fraction p, Layout.scientificChars (Nat.toDigits 10 n) (exponent + digitCount n) =
        whole ++ (fractionChars fraction ++ powerChars (some p)) ∧ IsNumeral whole fraction ∧
      Decimal.bits ⟨ofDigits (whole ++ fraction.getD []), p - ((fraction.getD []).length : Int)⟩ =
        Decimal.bits ⟨n, exponent⟩ := by
  obtain ⟨first, more, hchars⟩ :=
    List.exists_cons_of_ne_nil (Nat.toDigits_ne_nil (b := 10) (n := n))
  have hdigits : ∀ c ∈ first :: more, isAsciiDigit c = true :=
    hchars ▸ fun _ ↦ Decimal.isAsciiDigit_of_mem_toDigits
  have hvalue : ofDigits ([first] ++ more) = n := by
    rw [List.singleton_append, ← hchars, Decimal.ofDigits_toDigits]
  have hcount : digitCount n = more.length + 1 := by
    rw [digitCount, hchars, List.length_cons]
  rw [hchars]
  refine ⟨[first], fractionOf more, _, scientificChars_cons first more _, ?_, ?_⟩
  · refine ⟨List.cons_ne_nil first [], ?_, isWhole_singleton first, ?_, ?_⟩
    · exact List.forall_mem_singleton.mpr (hdigits first List.mem_cons_self)
    · simp [fractionOf]
    · intro digits hmem c hc
      obtain ⟨-, rfl⟩ : more ≠ [] ∧ more = digits := by simpa [fractionOf] using hmem
      exact hdigits c (List.mem_cons_of_mem _ hc)
  · rw [getD_fractionOf, hvalue]
    congr 2
    omega

/-- The parts of what a finite number is written as: what they spell is rounded to it. -/
theorem exists_isNumeral_magnitudeChars {x : Float} (h : x.isFinite = true) :
    ∃ whole fraction power, Layout.json.magnitudeChars (magnitude x) =
        whole ++ (fractionChars fraction ++ powerChars power) ∧ IsNumeral whole fraction ∧
      ofNumeral (isNegative x) whole fraction power = .real x := by
  have hnumeral {whole : List Char} {fraction : Option (List Char)} {power : Option Int}
      (hparts : fraction.isSome = true ∨ power.isSome = true)
      (hbits : Decimal.bits ⟨ofDigits (whole ++ fraction.getD []),
        power.getD 0 - ((fraction.getD []).length : Int)⟩ = magnitude x) :
      ofNumeral (isNegative x) whole fraction power = .real x := by
    have hself : toFloat (isNegative x) ⟨ofDigits (whole ++ fraction.getD []),
        power.getD 0 - ((fraction.getD []).length : Int)⟩ = x := by
      rw [toFloat, hbits, Binary64.signedBits_magnitude]
    unfold ofNumeral
    split
    · simp at hparts
    · exact congrArg Json.real hself
  by_cases hzero : magnitude x = 0
  · refine ⟨['0'], some ['0'], none, ?_, ⟨by simp, ?_, rfl, by simp, ?_⟩, hnumeral (.inl rfl) ?_⟩
    · rw [hzero]
      rfl
    · exact List.forall_mem_singleton.mpr rfl
    · rintro digits ⟨⟩
      exact List.forall_mem_singleton.mpr rfl
    · rw [hzero]
      exact Decimal.bits_zero _
  · obtain ⟨hchars, hbits⟩ := Decimal.magnitudeChars_of_isFinite .json h hzero
    generalize Decimal.shortest Layout.json.tie (magnitude x) = d at hchars hbits
    have hdigits : d.digits ≠ 0 := by
      intro hd
      obtain ⟨n, exponent⟩ := d
      subst hd
      exact hzero (hbits.symm.trans (Decimal.bits_zero exponent))
    have hjson : Layout.json.decimalChars d =
        if -4 ≤ d.exponent + (digitCount d.digits : Int) ∧
            d.exponent + (digitCount d.digits : Int) ≤ 16 then
          Layout.positionalChars true (Nat.toDigits 10 d.digits) (d.exponent + digitCount d.digits)
        else
          Layout.scientificChars (Nat.toDigits 10 d.digits) (d.exponent + digitCount d.digits) :=
      rfl
    rw [hchars, hjson]
    split
    · obtain ⟨whole, digits, hpositional, hparts, hsame⟩ :=
        exists_isNumeral_positionalChars hdigits d.exponent
      refine ⟨whole, some digits, none, ?_, hparts, hnumeral (.inl rfl) ?_⟩
      · rw [hpositional, fractionChars, powerChars, List.append_nil]
      · rw [← hbits, ← hsame, Option.getD_none, zero_sub]
        rfl
    · obtain ⟨whole, fraction, p, hscientific, hparts, hsame⟩ :=
        exists_isNumeral_scientificChars d.digits d.exponent
      exact ⟨whole, fraction, some p, hscientific, hparts,
        hnumeral (.inr rfl) (hsame.trans hbits)⟩

/-- A finite number is one token. -/
theorem token?_real {x : Float} (h : x.isFinite = true) (hrest : EndsNumber rest) :
    token? (realOnto x rest) = some (.scalar (some (.real x)), rest) := by
  obtain ⟨whole, fraction, power, hchars, hparts, hvalue⟩ := exists_isNumeral_magnitudeChars h
  have htoken := token?_append hparts power hrest (isNegative x)
  have hinRange : (some (Json.real x)).filter isInRange = some (.real x) := by
    rw [Option.filter_some]
    exact if_pos h
  rw [hvalue, hinRange] at htoken
  rw [realOnto, if_pos h, Decimal.chars_of_isFinite .json h, hchars]
  cases hsign : isNegative x with
  | true => simpa [hsign] using htoken
  | false => simpa [hsign] using htoken

end Criteria.Json
