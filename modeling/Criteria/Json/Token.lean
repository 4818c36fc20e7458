import Criteria.Decimal.Numeral
import Criteria.Json

/-!
A JSON text cut into tokens. A string or number is one token that already holds its value, if it has
one: a number may lie beyond the range of binary64, and an escape may name half a character.
-/

set_option autoImplicit false
set_option relaxedAutoImplicit false

namespace Criteria.Json

inductive Token where
  | openArray
  | closeArray
  | openObject
  | closeObject
  | colon
  | comma
  /-- A string. One that names half a character spells no text. -/
  | text (s : Option String)
  /-- Any other value without parts. A number out of range has none. -/
  | scalar (v : Option Json)

def isLayout (c : Char) : Bool :=
  c == ' ' || c == '\t' || c == '\n' || c == '\r'

/-- The number that four hexadecimal digits spell. -/
def hexWord? (a b c d : Char) : Option Nat := do
  let a ← Text.hexValue? a
  let b ← Text.hexValue? b
  let c ← Text.hexValue? c
  let d ← Text.hexValue? d
  return ((a * 16 + b) * 16 + c) * 16 + d

/-- The character that one escaped letter stands for. -/
def shortEscape? (c : Char) : Option Char :=
  match c with
  | '"' => some '"'
  | '\\' => some '\\'
  | '/' => some '/'
  | 'b' => some '\x08'
  | 'f' => some '\x0c'
  | 'n' => some '\n'
  | 'r' => some '\r'
  | 't' => some '\t'
  | _ => none

def isHighSurrogate (n : Nat) : Bool :=
  0xD800 ≤ n && n < 0xDC00

def isLowSurrogate (n : Nat) : Bool :=
  0xDC00 ≤ n && n < 0xE000

def isSurrogate (n : Nat) : Bool :=
  isHighSurrogate n || isLowSurrogate n

/-- The characters read so far with the one of this code point. After half a character there are
none. -/
def withCode (done : Option (List Char)) (code : Nat) : Option (List Char) :=
  if isSurrogate code then none else done.map (Char.ofNat code :: ·)

/-- The rest of a string after its opening quote: `done` holds the characters read, last first. A
character beyond U+FFFF may be written as its two surrogates. -/
def stringFrom (done : Option (List Char)) : List Char → Option (Option String × List Char)
  | '"' :: rest => some (done.map fun cs ↦ String.ofList cs.reverse, rest)
  | '\\' :: 'u' :: a :: b :: c :: d :: '\\' :: 'u' :: e :: f :: g :: h :: rest =>
    match hexWord? a b c d, hexWord? e f g h with
    | some high, some low =>
      if isHighSurrogate high && isLowSurrogate low then
        stringFrom (withCode done (0x10000 + (high - 0xD800) * 0x400 + (low - 0xDC00))) rest
      else stringFrom (withCode done high) ('\\' :: 'u' :: e :: f :: g :: h :: rest)
    | _, _ => none
  | '\\' :: 'u' :: a :: b :: c :: d :: rest =>
    match hexWord? a b c d with
    | none => none
    | some code => stringFrom (withCode done code) rest
  | '\\' :: c :: rest =>
    match shortEscape? c with
    | none => none
    | some plain => stringFrom (done.map (plain :: ·)) rest
  | c :: rest => if c.toNat < 0x20 then none else stringFrom (done.map (c :: ·)) rest
  | [] => none

/-- An integer that 64 bits hold with or without a sign; a larger one becomes the nearest number. -/
def ofInteger (negative : Bool) (n : Nat) : Json :=
  if negative then
    if n = 0 ∨ Nat.pow 2 63 < n then .real (Decimal.toFloat true ⟨n, 0⟩) else .int (-(n : Int))
  else if n < Nat.pow 2 64 then .int n
  else .real (Decimal.toFloat false ⟨n, 0⟩)

/-- The digits at the head of a text, of which there has to be one, and the rest. -/
def splitDigits? (cs : List Char) : Option (List Char × List Char) :=
  if cs.takeWhile Decimal.isAsciiDigit = [] then none
  else some (cs.takeWhile Decimal.isAsciiDigit, cs.dropWhile Decimal.isAsciiDigit)

/-- The digits behind the point, if a point comes next. -/
def splitFraction? : List Char → Option (Option (List Char) × List Char)
  | '.' :: rest => (splitDigits? rest).map fun (digits, rest) ↦ (some digits, rest)
  | cs => some (none, cs)

/-- The power of ten, if one comes next. -/
def splitPower? : List Char → Option (Option Int × List Char)
  | [] => some (none, [])
  | c :: rest =>
    if c = 'e' ∨ c = 'E' then
      (splitDigits? (Decimal.splitSign rest).2).map fun (digits, tail) ↦
        let n : Int := Decimal.ofDigits digits
        (some (if (Decimal.splitSign rest).1 then -n else n), tail)
    else some (none, c :: rest)

/-- Digits before the point: no zero stands in front of others. -/
def isWhole : List Char → Bool
  | '0' :: _ :: _ => false
  | _ => true

/-- What the parts of a numeral amount to. Without point and power it is an integer; with them it is
the binary64 number nearest to the decimal. That much is assumed of a reader of JSON texts: one that
gives up exactness for speed may be off by one unit in the last place, so that a number that was
written does not always read back, and 1.7976931348623158e308, to which the largest number is
nearest, is out of its range. -/
def ofNumeral (negative : Bool) (whole : List Char) (fraction : Option (List Char))
    (power : Option Int) : Json :=
  match fraction, power with
  | none, none => ofInteger negative (Decimal.ofDigits whole)
  | _, _ =>
    let digits := fraction.getD []
    .real (Decimal.toFloat negative
      ⟨Decimal.ofDigits (whole ++ digits), power.getD 0 - (digits.length : Int)⟩)

def isInRange : Json → Bool
  | .real x => x.isFinite
  | _ => true

/-- The number at the head of a text, as long as it can be, after its sign. -/
def unsigned? (negative : Bool) (cs : List Char) : Option (Token × List Char) := do
  let (whole, rest) ← splitDigits? cs
  if !isWhole whole then none
  let (fraction, rest) ← splitFraction? rest
  let (power, rest) ← splitPower? rest
  return (.scalar (some (ofNumeral negative whole fraction power) |>.filter isInRange), rest)

/-- The token at the head of a text that does not begin with layout. -/
def token? : List Char → Option (Token × List Char)
  | '[' :: rest => some (.openArray, rest)
  | ']' :: rest => some (.closeArray, rest)
  | '{' :: rest => some (.openObject, rest)
  | '}' :: rest => some (.closeObject, rest)
  | ':' :: rest => some (.colon, rest)
  | ',' :: rest => some (.comma, rest)
  | '"' :: rest => (stringFrom (some []) rest).map fun (s, tail) ↦ (.text s, tail)
  | 'n' :: 'u' :: 'l' :: 'l' :: rest => some (.scalar (some .null), rest)
  | 't' :: 'r' :: 'u' :: 'e' :: rest => some (.scalar (some (.bool true)), rest)
  | 'f' :: 'a' :: 'l' :: 's' :: 'e' :: rest => some (.scalar (some (.bool false)), rest)
  | '-' :: rest => unsigned? true rest
  | cs => unsigned? false cs

theorem length_stringFrom_lt {done : Option (List Char)} {cs rest : List Char} {s : Option String}
    (h : stringFrom done cs = some (s, rest)) : rest.length < cs.length := by
  fun_induction stringFrom done cs <;> simp_all <;> omega

theorem length_splitDigits?_lt {cs digits rest : List Char}
    (h : splitDigits? cs = some (digits, rest)) : rest.length < cs.length := by
  unfold splitDigits? at h
  split at h
  · simp at h
  · rename_i hne
    simp only [Option.some.injEq, Prod.mk.injEq] at h
    obtain ⟨_, rfl⟩ := h
    have hlen := congrArg List.length
      (List.takeWhile_append_dropWhile (p := Decimal.isAsciiDigit) (l := cs))
    have := List.length_pos_iff.mpr hne
    simp only [List.length_append] at hlen
    omega

theorem length_splitFraction?_le {cs rest : List Char} {fraction : Option (List Char)}
    (h : splitFraction? cs = some (fraction, rest)) : rest.length ≤ cs.length := by
  unfold splitFraction? at h
  split at h
  · simp only [Option.map_eq_some_iff, Prod.mk.injEq, Prod.exists] at h
    obtain ⟨digits, tail, hd, _, rfl⟩ := h
    have := length_splitDigits?_lt hd
    simp only [List.length_cons]
    omega
  · simp only [Option.some.injEq, Prod.mk.injEq] at h
    obtain ⟨_, rfl⟩ := h
    exact Nat.le_refl _

theorem length_splitSign_le (cs : List Char) : (Decimal.splitSign cs).2.length ≤ cs.length := by
  unfold Decimal.splitSign
  split <;> simp

theorem length_splitPower?_le {cs rest : List Char} {power : Option Int}
    (h : splitPower? cs = some (power, rest)) : rest.length ≤ cs.length := by
  unfold splitPower? at h
  split at h
  · simp only [Option.some.injEq, Prod.mk.injEq] at h
    obtain ⟨_, rfl⟩ := h
    exact Nat.le_refl _
  · rename_i c tail
    split at h
    · simp only [Option.map_eq_some_iff, Prod.mk.injEq, Prod.exists] at h
      obtain ⟨digits, after, hd, _, rfl⟩ := h
      have := length_splitDigits?_lt hd
      have := length_splitSign_le tail
      simp only [List.length_cons]
      omega
    · simp only [Option.some.injEq, Prod.mk.injEq] at h
      obtain ⟨_, rfl⟩ := h
      exact Nat.le_refl _

theorem length_unsigned?_lt {negative : Bool} {cs rest : List Char} {t : Token}
    (h : unsigned? negative cs = some (t, rest)) : rest.length < cs.length := by
  simp only [unsigned?, bind, Option.bind_eq_some_iff, Prod.exists] at h
  obtain ⟨whole, rest₀, hw, h⟩ := h
  split at h
  · simp at h
  · simp only [pure, Option.bind_eq_some_iff, Prod.exists, Option.some.injEq,
      Prod.mk.injEq] at h
    obtain ⟨fraction, rest₁, hf, power, rest₂, hp, _, rfl⟩ := h
    have := length_splitDigits?_lt hw
    have := length_splitFraction?_le hf
    have := length_splitPower?_le hp
    omega

/-- What follows a token is shorter than the text. -/
theorem length_token?_lt {cs rest : List Char} {t : Token} (h : token? cs = some (t, rest)) :
    rest.length < cs.length := by
  unfold token? at h
  split at h
  case h_7 =>
    simp only [Option.map_eq_some_iff, Prod.mk.injEq, Prod.exists] at h
    obtain ⟨s, tail, hs, _, rfl⟩ := h
    have := length_stringFrom_lt hs
    simp only [List.length_cons]
    omega
  case h_11 =>
    have := length_unsigned?_lt h
    simp only [List.length_cons]
    omega
  case h_12 => exact length_unsigned?_lt h
  all_goals
    simp only [Option.some.injEq, Prod.mk.injEq] at h
    obtain ⟨_, rfl⟩ := h
    simp
    try omega

/-- Reads on from the middle of a text: `done` holds the tokens read, last first. -/
def tokensFrom (done : List Token) (cs : List Char) : List Token × Bool :=
  match cs with
  | [] => (done.reverse, true)
  | c :: rest =>
    if isLayout c then tokensFrom done rest
    else
      match _h : token? (c :: rest) with
      | none => (done.reverse, false)
      | some (t, after) => tokensFrom (t :: done) after
termination_by cs.length
decreasing_by
  · simp
  · exact length_token?_lt _h

/-- The tokens of a text up to its end, or up to where no token begins. -/
def tokens (s : String) : List Token × Bool :=
  tokensFrom [] s.toList

end Criteria.Json
