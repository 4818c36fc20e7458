import Criteria.Proofs.Json.Number

/-!
JSON texts by the grammar of JSON, without layout between the tokens. Each value is written as such
a text, whatever stands in its quoted texts, and no control character stands in a text of the
grammar; so an answer is one line.
-/

set_option autoImplicit false
set_option relaxedAutoImplicit false

namespace Criteria.Json

open Decimal (isAsciiDigit)

/-! ### The grammar -/

/-- A piece of a quoted text stands for one character, or for a half of one. -/
inductive IsPiece : List Char → Prop
  | plain {c : Char} (hquote : c ≠ '"') (hslash : c ≠ '\\') (hprints : 0x20 ≤ c.toNat) :
    IsPiece [c]
  | short {c : Char} (h : c ∈ ['"', '\\', '/', 'b', 'f', 'n', 'r', 't']) : IsPiece ['\\', c]
  | code {a b c d : Char} (h : ∀ digit ∈ [a, b, c, d], (Text.hexValue? digit).isSome = true) :
    IsPiece ['\\', 'u', a, b, c, d]

def IsQuoted (cs : List Char) : Prop :=
  ∃ pieces : List (List Char),
    cs = '"' :: (pieces.flatten ++ ['"']) ∧ ∀ piece ∈ pieces, IsPiece piece

/-- Digits with a minus, a fraction and a signed power of ten, where there are any. -/
def IsNumber (cs : List Char) : Prop :=
  ∃ (negative : Bool) (whole : List Char) (fraction : Option (List Char)) (power : Option Int),
    cs = (if negative then ['-'] else []) ++
      (whole ++ (fractionChars fraction ++ powerChars power)) ∧ IsNumeral whole fraction

/-- The texts of values. -/
inductive IsValue : List Char → Prop
  | null : IsValue ['n', 'u', 'l', 'l']
  | true : IsValue ['t', 'r', 'u', 'e']
  | false : IsValue ['f', 'a', 'l', 's', 'e']
  | number {cs : List Char} (h : IsNumber cs) : IsValue cs
  | text {cs : List Char} (h : IsQuoted cs) : IsValue cs
  | array {items : List (List Char)} (hitems : ∀ item ∈ items, IsValue item) :
    IsValue ('[' :: ([','].intercalate items ++ [']']))
  | object {members : List (List Char × List Char)} (hnames : ∀ m ∈ members, IsQuoted m.1)
    (hvalues : ∀ m ∈ members, IsValue m.2) :
    IsValue ('{' :: ([','].intercalate (members.map fun m ↦ m.1 ++ ':' :: m.2) ++ ['}']))

/-! ### What is written -/

/-- The code points of control characters are written with hexadecimal digits. -/
theorem hexValue?_control : ∀ n < 0x20,
    (Text.hexValue? (Text.hexDigit (n / 16))).isSome = true ∧
      (Text.hexValue? (Text.hexDigit (n % 16))).isSome = true := by
  decide

theorem isPiece_escaped (c : Char) : IsPiece (escaped c) := by
  unfold escaped
  split
  case h_8 hquote hslash _ _ _ _ _ =>
    by_cases hcontrol : c.toNat < 0x20
    · obtain ⟨hhigh, hlow⟩ := hexValue?_control c.toNat hcontrol
      rw [if_pos hcontrol]
      refine .code ?_
      simpa [hhigh, hlow] using show (Text.hexValue? '0').isSome = true by decide
    · rw [if_neg hcontrol]
      exact .plain hquote hslash (Nat.not_lt.mp hcontrol)
  all_goals exact .short (by decide)

theorem quotedOnto_eq (s : String) (rest : List Char) :
    quotedOnto s rest = '"' :: ((s.toList.map escaped).flatten ++ '"' :: rest) := by
  rw [quotedOnto]
  congr 1
  induction s.toList with
  | nil => rfl
  | cons c cs ih => rw [List.foldr_cons, ih, List.map_cons, List.flatten_cons, List.append_assoc]

theorem quotedOnto_eq_append (s : String) (rest : List Char) :
    quotedOnto s rest = quotedOnto s [] ++ rest := by
  rw [quotedOnto_eq, quotedOnto_eq]
  simp

theorem isQuoted_quotedOnto (s : String) : IsQuoted (quotedOnto s []) :=
  ⟨_, quotedOnto_eq s [], List.forall_mem_map.mpr fun c _ ↦ isPiece_escaped c⟩

theorem isNumber_toString (n : Int) : IsNumber (toString n).toList := by
  refine ⟨decide (n < 0), _, none, none, ?_, isNumeral_toDigits n.natAbs⟩
  rw [toList_toString]
  simp [fractionChars, powerChars]

theorem isNumber_chars {x : Float} (h : x.isFinite = true) : IsNumber (Layout.json.chars x) := by
  obtain ⟨whole, fraction, power, hchars, hparts, -⟩ := exists_isNumeral_magnitudeChars h
  refine ⟨Binary64.isNegative x, whole, fraction, power, ?_, hparts⟩
  rw [Decimal.chars_of_isFinite .json h, hchars]
  cases Binary64.isNegative x <;> rfl

theorem realOnto_eq_append (x : Float) (rest : List Char) :
    realOnto x rest = realOnto x [] ++ rest := by
  unfold realOnto
  split
  · rw [List.append_nil]
  · rfl

theorem isValue_realOnto (x : Float) : IsValue (realOnto x []) := by
  unfold realOnto
  split
  · rename_i h
    rw [List.append_nil]
    exact .number (isNumber_chars h)
  · exact .null

/-- The characters of a member. -/
def memberChars (m : String × Json) : List Char :=
  quotedOnto m.1 [] ++ ':' :: m.2.onto []

mutual

/-- The text of a value is put in front of what follows, and the texts of items and members are
separated by commas. -/
theorem onto_eq_append (v : Json) (rest : List Char) : v.onto rest = v.onto [] ++ rest := by
  match v with
  | .null | .bool true | .bool false => rfl
  | .int n => simp [onto]
  | .real x => exact realOnto_eq_append x rest
  | .text s => exact quotedOnto_eq_append s rest
  | .array items =>
    rw [onto, onto, itemsOnto_eq items rest, itemsOnto_eq items []]
    simp
  | .object members =>
    rw [onto, onto, membersOnto_eq members rest, membersOnto_eq members []]
    simp

theorem itemsOnto_eq (items : List Json) (rest : List Char) :
    itemsOnto items rest =
      [','].intercalate (items.map fun item ↦ item.onto []) ++ ']' :: rest := by
  match items with
  | [] => rfl
  | [item] =>
    rw [itemsOnto, onto_eq_append item]
    simp
  | item :: next :: items =>
    rw [itemsOnto, onto_eq_append item, itemsOnto_eq (next :: items)]
    simp [List.intercalate_cons_cons]

theorem membersOnto_eq (members : List (String × Json)) (rest : List Char) :
    membersOnto members rest = [','].intercalate (members.map memberChars) ++ '}' :: rest := by
  match members with
  | [] => rfl
  | [(name, v)] =>
    rw [membersOnto, quotedOnto_eq_append, onto_eq_append v]
    simp [memberChars]
  | (name, v) :: next :: members =>
    rw [membersOnto, quotedOnto_eq_append, onto_eq_append v, membersOnto_eq (next :: members)]
    simp [List.intercalate_cons_cons, memberChars]

end

mutual

theorem isValue_onto (v : Json) : IsValue (v.onto []) := by
  match v with
  | .null => exact .null
  | .bool true => exact .true
  | .bool false => exact .false
  | .int n =>
    rw [onto, List.append_nil]
    exact .number (isNumber_toString n)
  | .real x => exact isValue_realOnto x
  | .text s => exact .text (isQuoted_quotedOnto s)
  | .array items =>
    rw [onto, itemsOnto_eq]
    exact .array (List.forall_mem_map.mpr (isValue_items items))
  | .object members =>
    have hobject := @IsValue.object (members.map fun m ↦ (quotedOnto m.1 [], m.2.onto []))
      (List.forall_mem_map.mpr fun m _ ↦ isQuoted_quotedOnto m.1)
      (List.forall_mem_map.mpr (isValue_members members))
    rw [onto, membersOnto_eq]
    rwa [List.map_map] at hobject

theorem isValue_items (items : List Json) : ∀ item ∈ items, IsValue (item.onto []) := by
  match items with
  | [] => simp
  | item :: items =>
    exact List.forall_mem_cons.mpr ⟨isValue_onto item, isValue_items items⟩

theorem isValue_members (members : List (String × Json)) :
    ∀ m ∈ members, IsValue (m.2.onto []) := by
  match members with
  | [] => simp
  | (name, v) :: members =>
    exact List.forall_mem_cons.mpr ⟨isValue_onto v, isValue_members members⟩

end

/-- Every value is written as a JSON text. -/
theorem isValue_write (v : Json) : IsValue v.write.toList := by
  rw [write, String.toList_ofList]
  exact isValue_onto v

/-! ### Control characters -/

theorem prints_of_isAsciiDigit {c : Char} (h : isAsciiDigit c = true) : 0x20 ≤ c.toNat := by
  rw [isAsciiDigit, Bool.and_eq_true, decide_eq_true_eq] at h
  exact Nat.le_trans (by decide) h.1

theorem prints_of_hexValue? {c : Char} (h : (Text.hexValue? c).isSome = true) :
    0x20 ≤ c.toNat := by
  unfold Text.hexValue? at h
  split_ifs at h with hdigit hsmall hlarge
  · exact Nat.le_trans (by decide) hdigit.1
  · exact Nat.le_trans (by decide) hsmall.1
  · exact Nat.le_trans (by decide) hlarge.1
  · cases h

theorem IsPiece.prints {cs : List Char} (h : IsPiece cs) : ∀ c ∈ cs, 0x20 ≤ c.toNat := by
  cases h with
  | plain _ _ hprints => exact List.forall_mem_singleton.mpr hprints
  | @short c h =>
    have hletters : ∀ c ∈ ['"', '\\', '/', 'b', 'f', 'n', 'r', 't'], 0x20 ≤ c.toNat := by simp
    simpa using hletters c h
  | code h => simpa using fun digit hdigit ↦ prints_of_hexValue? (h digit hdigit)

theorem IsQuoted.prints {cs : List Char} (h : IsQuoted cs) : ∀ c ∈ cs, 0x20 ≤ c.toNat := by
  obtain ⟨pieces, rfl, hpieces⟩ := h
  simp only [List.forall_mem_cons, List.forall_mem_append, List.mem_flatten]
  refine ⟨by decide, ?_, by simp⟩
  rintro c ⟨piece, hpiece, hc⟩
  exact (hpieces piece hpiece).prints c hc

theorem IsNumber.prints {cs : List Char} (h : IsNumber cs) : ∀ c ∈ cs, 0x20 ≤ c.toNat := by
  obtain ⟨negative, whole, fraction, power, rfl, hparts⟩ := h
  simp only [List.forall_mem_append]
  refine ⟨by cases negative <;> simp, fun c hc ↦ prints_of_isAsciiDigit (hparts.whole_digits c hc),
    ?_, ?_⟩
  · cases fraction with
    | none => simp [fractionChars]
    | some digits =>
      exact List.forall_mem_cons.mpr ⟨by decide,
        fun c hc ↦ prints_of_isAsciiDigit (hparts.fraction_digits digits rfl c hc)⟩
  · cases power with
    | none => simp [powerChars]
    | some p =>
      refine List.forall_mem_cons.mpr ⟨by decide, List.forall_mem_cons.mpr ⟨?_, fun c hc ↦ ?_⟩⟩
      · split <;> decide
      · exact prints_of_isAsciiDigit (Decimal.isAsciiDigit_of_mem_toDigits hc)

theorem prints_intercalate {texts : List (List Char)}
    (h : ∀ text ∈ texts, ∀ c ∈ text, 0x20 ≤ c.toNat) :
    ∀ c ∈ [','].intercalate texts, 0x20 ≤ c.toNat := by
  induction texts with
  | nil => simp
  | cons text texts ih =>
    obtain ⟨htext, htexts⟩ := List.forall_mem_cons.mp h
    cases texts with
    | nil => simpa using htext
    | cons next texts =>
      rw [List.intercalate_cons_cons]
      simp only [List.forall_mem_append, List.forall_mem_singleton]
      exact ⟨⟨htext, by decide⟩, ih htexts⟩

/-- No control character stands in a JSON text. -/
theorem IsValue.prints {cs : List Char} (h : IsValue cs) : ∀ c ∈ cs, 0x20 ≤ c.toNat := by
  induction h with
  | null | true | false => simp
  | number h => exact h.prints
  | text h => exact h.prints
  | array _ ih =>
    simp only [List.forall_mem_cons, List.forall_mem_append]
    exact ⟨by decide, prints_intercalate ih, by simp⟩
  | @object members hnames _ ih =>
    simp only [List.forall_mem_cons, List.forall_mem_append]
    refine ⟨by decide, prints_intercalate ?_, by simp⟩
    refine List.forall_mem_map.mpr fun m hm ↦ ?_
    simp only [List.forall_mem_cons, List.forall_mem_append]
    exact ⟨(hnames m hm).prints, by decide, ih m hm⟩

end Criteria.Json
