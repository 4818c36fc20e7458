import Criteria.Decimal.Layout
import Criteria.Decimal.Numeral
import Criteria.Proofs.Decimal.Binary64
import Criteria.Proofs.Decimal.Rounding
import Criteria.Proofs.Token.Shape

/-!
What is written of a finite number reads back to it. Without an exponent a number is written as
digits with an optional point, so it spells a fraction, and that fraction is rounded to the number.
-/

set_option autoImplicit false
set_option relaxedAutoImplicit false

namespace Criteria.Decimal

open Binary64 (magnitude isNegative)

/-! ### Digits -/

theorem ofDigits_append (cs es : List Char) :
    ofDigits (cs ++ es) = es.foldl (fun n c ↦ 10 * n + (c.toNat - '0'.toNat)) (ofDigits cs) :=
  List.foldl_append

theorem ofDigits_toDigits (n : Nat) : ofDigits (Nat.toDigits 10 n) = n :=
  Nat.ofDigitChars_ten_toDigits

theorem ofDigits_append_zeros (cs : List Char) (k : Nat) :
    ofDigits (cs ++ List.replicate k '0') = ofDigits cs * 10 ^ k := by
  rw [ofDigits_append, ← Nat.ofDigitChars_eq_foldl, Nat.ofDigitChars_replicate_zero, mul_comm]

theorem ofDigits_zeros_append (k : Nat) (cs : List Char) :
    ofDigits (List.replicate k '0' ++ cs) = ofDigits cs := by
  have hzeros : ofDigits (List.replicate k '0') = 0 := by
    have h := ofDigits_append_zeros [] k
    rwa [List.nil_append, show ofDigits [] = 0 from rfl, zero_mul] at h
  rw [ofDigits_append, hzeros]
  rfl

theorem isAsciiDigit_of_mem_toDigits {n : Nat} {c : Char} (h : c ∈ Nat.toDigits 10 n) :
    isAsciiDigit c = true :=
  Nat.isDigit_of_mem_toDigits (by omega) (by omega) h

theorem isDigit_of_isAsciiDigit {c : Char} (h : isAsciiDigit c = true) :
    Text.isDigit c = true := by
  have hrange : 48 ≤ c.toNat ∧ c.toNat ≤ 57 := by
    simpa [isAsciiDigit, Char.le_def, UInt32.le_iff_toNat_le] using h
  simp only [Text.isDigit, Text.digitRanges, Text.inRanges]
  rw [if_neg (by omega), if_pos hrange.2]

theorem toLower_of_isAsciiDigit {c : Char} (h : isAsciiDigit c = true) : c.toLower = c := by
  have hrange : 48 ≤ c.toNat ∧ c.toNat ≤ 57 := by
    simpa [isAsciiDigit, Char.le_def, UInt32.le_iff_toNat_le] using h
  refine dif_neg fun hupper ↦ ?_
  have hleast : 65 ≤ c.toNat := UInt32.le_iff_toNat_le.mp hupper.1
  omega

/-! ### Numerals without an exponent -/

/-- The characters are ASCII digits, with or without a point between two of them, and spell this
fraction. -/
inductive Spells : List Char → Decimal → Prop
  | whole {ds : List Char} (hne : ds ≠ []) (hds : ∀ c ∈ ds, isAsciiDigit c = true) :
    Spells ds ⟨ofDigits ds, 0⟩
  | point {ds es : List Char} (hne : ds ≠ []) (hds : ∀ c ∈ ds, isAsciiDigit c = true)
    (hne' : es ≠ []) (hes : ∀ c ∈ es, isAsciiDigit c = true) :
    Spells (ds ++ '.' :: es) ⟨ofDigits (ds ++ es), -(es.length : Int)⟩

namespace Spells

variable {cs : List Char} {d : Decimal}

theorem unsigned (h : Spells cs d) : Token.Unsigned cs := by
  cases h with
  | whole hne hds => exact .whole hne fun c hc ↦ isDigit_of_isAsciiDigit (hds c hc)
  | point hne hds hne' hes =>
    exact .point hne (fun c hc ↦ isDigit_of_isAsciiDigit (hds c hc)) hne'
      fun c hc ↦ isDigit_of_isAsciiDigit (hes c hc)

theorem exists_cons (h : Spells cs d) : ∃ c rest, cs = c :: rest ∧ isAsciiDigit c = true := by
  cases h with
  | whole hne hds =>
    obtain ⟨c, rest, rfl⟩ := List.exists_cons_of_ne_nil hne
    exact ⟨c, rest, rfl, hds c List.mem_cons_self⟩
  | @point ds es hne hds =>
    obtain ⟨c, rest, rfl⟩ := List.exists_cons_of_ne_nil hne
    exact ⟨c, rest ++ '.' :: es, rfl, hds c List.mem_cons_self⟩

theorem ofChars?_eq (h : Spells cs d) : ofChars? cs = some d := by
  cases h with
  | whole hne hds =>
    have htake := List.takeWhile_eq_self_iff.mpr hds
    have hdrop := List.dropWhile_eq_nil_iff.mpr hds
    simp [ofChars?, htake, hdrop, splitFraction, hne, exponent?]
  | @point ds es hne hds hne' hes =>
    have htake : (ds ++ '.' :: es).takeWhile isAsciiDigit = ds := by
      rw [List.takeWhile_append_of_pos hds]
      simp [show isAsciiDigit '.' = false by decide]
    have hdrop : (ds ++ '.' :: es).dropWhile isAsciiDigit = '.' :: es := by
      rw [List.dropWhile_append_of_pos hds]
      simp [show isAsciiDigit '.' = false by decide]
    have htake' := List.takeWhile_eq_self_iff.mpr hes
    have hdrop' := List.dropWhile_eq_nil_iff.mpr hes
    simp [ofChars?, htake, hdrop, splitFraction, htake', hdrop', hne, exponent?]

/-- No name of a number has a digit. -/
theorem name_ne (h : Spells cs d) {name : String}
    (hname : name.toList.any isAsciiDigit = false) :
    String.ofList (cs.map Char.toLower) ≠ name := by
  obtain ⟨c, rest, rfl, hc⟩ := h.exists_cons
  rintro rfl
  have hfalse := List.any_eq_false.mp hname c.toLower (by simp)
  rw [toLower_of_isAsciiDigit hc, hc] at hfalse
  exact hfalse rfl

theorem splitSign_eq (h : Spells cs d) : splitSign cs = (false, cs) := by
  obtain ⟨c, rest, rfl, hc⟩ := h.exists_cons
  unfold splitSign
  split
  · simp_all [isAsciiDigit]
  · simp_all [isAsciiDigit]
  · rfl

/-- The characters are read as the number nearest to the fraction, with either sign. -/
theorem numeral?_eq (h : Spells cs d) :
    numeral? cs = some (toFloat false d) ∧ numeral? ('-' :: cs) = some (toFloat true d) := by
  have hnames : ¬(String.ofList (cs.map Char.toLower) = "inf" ∨
      String.ofList (cs.map Char.toLower) = "infinity") ∧
      ¬String.ofList (cs.map Char.toLower) = "nan" :=
    ⟨not_or.mpr ⟨h.name_ne (by decide), h.name_ne (by decide)⟩, h.name_ne (by decide)⟩
  constructor
  · simp only [numeral?, h.splitSign_eq]
    rw [if_neg hnames.1, if_neg hnames.2, h.ofChars?_eq, Option.map_some]
  · simp only [numeral?, splitSign]
    rw [if_neg hnames.1, if_neg hnames.2, h.ofChars?_eq, Option.map_some]

end Spells

/-! ### Written numbers -/

theorem isAsciiDigit_of_mem_zeros {k : Nat} {c : Char} (h : c ∈ List.replicate k '0') :
    isAsciiDigit c = true := by
  rw [List.eq_of_mem_replicate h]
  rfl

/-- All digits stand behind the point, with zeros in front of them. -/
theorem spells_behind (k n : Nat) :
    Spells ('0' :: '.' :: (List.replicate k '0' ++ Nat.toDigits 10 n))
      ⟨n, -((k + digitCount n : Nat) : Int)⟩ := by
  have hpoint := Spells.point (List.cons_ne_nil '0' []) (List.forall_mem_singleton.mpr rfl)
    (by simp [Nat.toDigits_ne_nil]) (List.forall_mem_append.mpr
      ⟨fun _ ↦ isAsciiDigit_of_mem_zeros (k := k),
        fun _ ↦ isAsciiDigit_of_mem_toDigits (n := n)⟩)
  have hvalue : ofDigits (['0'] ++ (List.replicate k '0' ++ Nat.toDigits 10 n)) = n := by
    rw [← List.append_assoc, show ['0'] = List.replicate 1 '0' from rfl,
      List.replicate_append_replicate, ofDigits_zeros_append, ofDigits_toDigits]
  rw [hvalue, List.length_append, List.length_replicate] at hpoint
  exact hpoint

/-- The point stands after the first `k` digits. -/
theorem spells_between {k n : Nat} (hpos : 0 < k) (hlt : k < digitCount n) :
    Spells ((Nat.toDigits 10 n).take k ++ '.' :: (Nat.toDigits 10 n).drop k)
      ⟨n, -((digitCount n - k : Nat) : Int)⟩ := by
  have hcount : (Nat.toDigits 10 n).length = digitCount n := rfl
  have htake : (Nat.toDigits 10 n).take k ≠ [] := by
    simp only [ne_eq, List.take_eq_nil_iff, Nat.toDigits_ne_nil, or_false]
    omega
  have hdrop : (Nat.toDigits 10 n).drop k ≠ [] := by
    simp only [ne_eq, List.drop_eq_nil_iff]
    omega
  have hpoint := Spells.point htake
    (fun c hc ↦ isAsciiDigit_of_mem_toDigits (List.mem_of_mem_take hc)) hdrop
    (fun c hc ↦ isAsciiDigit_of_mem_toDigits (List.mem_of_mem_drop hc))
  rw [List.take_append_drop, ofDigits_toDigits, List.length_drop] at hpoint
  exact hpoint

/-- Zeros follow the digits, and there is no point. -/
theorem spells_zeros (k n : Nat) :
    Spells (Nat.toDigits 10 n ++ List.replicate k '0') ⟨n * 10 ^ k, 0⟩ := by
  have hwhole := Spells.whole (by simp [Nat.toDigits_ne_nil]) (List.forall_mem_append.mpr
    ⟨fun _ ↦ isAsciiDigit_of_mem_toDigits (n := n),
      fun _ ↦ isAsciiDigit_of_mem_zeros (k := k)⟩)
  rw [ofDigits_append_zeros, ofDigits_toDigits] at hwhole
  exact hwhole

/-- Zeros follow the digits, and one more stands behind the point. -/
theorem spells_zeros_point (k n : Nat) :
    Spells (Nat.toDigits 10 n ++ List.replicate k '0' ++ ['.', '0']) ⟨n * 10 ^ (k + 1), -1⟩ := by
  have hpoint := Spells.point (by simp [Nat.toDigits_ne_nil]) (List.forall_mem_append.mpr
    ⟨fun _ ↦ isAsciiDigit_of_mem_toDigits (n := n),
      fun _ ↦ isAsciiDigit_of_mem_zeros (k := k)⟩)
    (List.cons_ne_nil '0' []) (List.forall_mem_singleton.mpr rfl)
  have hvalue : ofDigits (Nat.toDigits 10 n ++ List.replicate k '0' ++ ['0']) =
      n * 10 ^ (k + 1) := by
    rw [List.append_assoc, ← List.replicate_succ', ofDigits_append_zeros, ofDigits_toDigits]
  rw [hvalue] at hpoint
  exact hpoint

/-- Wherever the point stands, the characters spell a fraction with the same bits. -/
theorem exists_spells_positionalChars (decimalPlace : Bool) (n : Nat) (exponent : Int) :
    ∃ d, Spells (Layout.positionalChars decimalPlace (Nat.toDigits 10 n)
      (exponent + digitCount n)) d ∧ d.bits = bits ⟨n, exponent⟩ := by
  have hcount : (Nat.toDigits 10 n).length = digitCount n := rfl
  simp only [Layout.positionalChars, hcount]
  by_cases hsmall : exponent + (digitCount n : Int) ≤ 0
  · rw [if_pos hsmall]
    refine ⟨_, spells_behind _ n, ?_⟩
    congr 2
    omega
  · rw [if_neg hsmall]
    by_cases hinside : (exponent + (digitCount n : Int)).toNat < digitCount n
    · rw [if_pos hinside]
      refine ⟨_, spells_between (by omega) hinside, ?_⟩
      congr 2
      omega
    · rw [if_neg hinside]
      cases decimalPlace with
      | false =>
        rw [if_neg Bool.false_ne_true, List.append_nil]
        refine ⟨_, spells_zeros _ n, ?_⟩
        rw [bits_mul_pow]
        congr 2
        omega
      | true =>
        rw [if_pos rfl]
        refine ⟨_, spells_zeros_point _ n, ?_⟩
        rw [bits_mul_pow]
        congr 2
        omega

/-- A finite number is written as a sign and what its magnitude is written as. -/
theorem chars_of_isFinite (l : Layout) {x : Float} (h : x.isFinite = true) :
    l.chars x = if isNegative x then '-' :: l.magnitudeChars (magnitude x)
      else l.magnitudeChars (magnitude x) := by
  have hlt : magnitude x < infinityBits := (Binary64.isFinite_iff x).mp h
  have hnumber : ¬infinityBits < x.toBits.toNat % Nat.pow 2 63 := not_lt.mpr hlt.le
  simp only [Layout.chars]
  rw [if_neg hnumber]
  simp [isNegative, magnitude]

/-- A magnitude other than zero is written by its shortest digits, which read back to it. -/
theorem magnitudeChars_of_isFinite (l : Layout) {x : Float} (h : x.isFinite = true)
    (hzero : magnitude x ≠ 0) :
    l.magnitudeChars (magnitude x) = l.decimalChars (shortest l.tie (magnitude x)) ∧
      (shortest l.tie (magnitude x)).bits = magnitude x := by
  have hlt : magnitude x < infinityBits := (Binary64.isFinite_iff x).mp h
  refine ⟨?_, bits_shortest l.tie (Nat.pos_of_ne_zero hzero) hlt⟩
  rw [Layout.magnitudeChars, if_neg hzero, if_neg hlt.ne]

theorem bits_zero (exponent : Int) : bits ⟨0, exponent⟩ = 0 := by
  simp [bits, normal, strip_eq_self]

/-- A finite number is written as a sign and a fraction that is rounded to it. -/
theorem exists_spells_chars {x : Float} (h : x.isFinite = true) :
    ∃ body d, Spells body d ∧ d.bits = magnitude x ∧
      Layout.plain.chars x = if isNegative x then '-' :: body else body := by
  obtain ⟨d, hspells, hbits⟩ : ∃ d, Spells (Layout.plain.magnitudeChars (magnitude x)) d ∧
      d.bits = magnitude x := by
    by_cases hzero : magnitude x = 0
    · rw [hzero]
      exact ⟨⟨0, 0⟩, .whole (List.cons_ne_nil '0' []) (List.forall_mem_singleton.mpr rfl),
        bits_zero 0⟩
    · obtain ⟨hchars, hbits⟩ := magnitudeChars_of_isFinite .plain h hzero
      obtain ⟨d, hspells, hsame⟩ := exists_spells_positionalChars false
        (shortest .up (magnitude x)).digits (shortest .up (magnitude x)).exponent
      rw [hchars]
      exact ⟨d, hspells, hsame.trans hbits⟩
  exact ⟨_, d, hspells, hbits, chars_of_isFinite .plain h⟩

/-- A finite number reads back from what is written of it. -/
theorem finiteNumeral?_chars {x : Float} (h : x.isFinite = true) :
    finiteNumeral? (Layout.plain.chars x) = some x := by
  obtain ⟨body, d, hspells, hbits, hchars⟩ := exists_spells_chars h
  have hself : toFloat (isNegative x) d = x := by
    rw [toFloat, hbits, Binary64.signedBits_magnitude]
  have hnumeral : numeral? (Layout.plain.chars x) = some x := by
    rw [hchars]
    cases hsign : isNegative x with
    | true =>
      rw [hsign] at hself
      rw [if_pos rfl, hspells.numeral?_eq.2, hself]
    | false =>
      rw [hsign] at hself
      rw [if_neg Bool.false_ne_true, hspells.numeral?_eq.1, hself]
  rw [finiteNumeral?, hnumeral, Option.filter_some, if_pos h]

end Criteria.Decimal
