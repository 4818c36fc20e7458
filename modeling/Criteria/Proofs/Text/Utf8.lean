import Criteria.Text.Utf8
import Mathlib

/-!
Bytes that are UTF-8. The reader takes one character after another: a character that is begun is
finished by the bytes that its encoding still has, and by no others. So exactly the encodings of
texts are accepted, and each is read as its text.
-/

set_option autoImplicit false
set_option relaxedAutoImplicit false

namespace Criteria.Text

open String (utf8EncodeChar)

/-! ### Encodings by code point -/

/-- The bytes of a character as numbers. -/
theorem map_toNat_utf8EncodeChar (c : Char) :
    (utf8EncodeChar c).map UInt8.toNat =
      if c.toNat < 0x80 then [c.toNat]
      else if c.toNat < 0x800 then [c.toNat / 64 + 0xC0, c.toNat % 64 + 0x80]
      else if c.toNat < 0x10000 then
        [c.toNat / 4096 + 0xE0, c.toNat / 64 % 64 + 0x80, c.toNat % 64 + 0x80]
      else
        [c.toNat / 262144 + 0xF0, c.toNat / 4096 % 64 + 0x80, c.toNat / 64 % 64 + 0x80,
          c.toNat % 64 + 0x80] := by
  have hvalid : c.toNat < 0xD800 ∨ 0xDFFF < c.toNat ∧ c.toNat < 0x110000 := c.valid
  unfold utf8EncodeChar
  simp only [Char.toNat_val]
  split_ifs <;> simp [UInt8.toNat_ofNat'] <;> omega

theorem utf8EncodeChar_ne_nil (c : Char) : utf8EncodeChar c ≠ [] := by
  intro hnil
  have hbytes := map_toNat_utf8EncodeChar c
  rw [hnil] at hbytes
  split_ifs at hbytes <;> simp at hbytes

/-- Bytes with the numbers that belong to a code point are the encoding of its character. -/
theorem exists_char_of_map_toNat {v : Nat} {bytes : List UInt8} (hv : v.isValidChar)
    (h : bytes.map UInt8.toNat = (utf8EncodeChar (Char.ofNat v)).map UInt8.toNat) :
    ∃ c : Char, c.toNat = v ∧ utf8EncodeChar c = bytes := by
  refine ⟨Char.ofNat v, by rw [Char.toNat_ofNat, if_pos hv], ?_⟩
  exact List.map_injective_iff.mpr (fun _ _ ↦ UInt8.toNat_inj.mp) h.symm

variable {v : Nat} {a b x y z : UInt8} {front rest : List UInt8}

theorem exists_char_of_one (ha : a.toNat < 0x80) :
    ∃ c : Char, c.toNat = a.toNat ∧ utf8EncodeChar c = [a] := by
  have hv : a.toNat.isValidChar := Or.inl (by omega)
  refine exists_char_of_map_toNat hv ?_
  rw [map_toNat_utf8EncodeChar, Char.toNat_ofNat, if_pos hv, if_pos ha]
  rfl

theorem exists_char_of_two (ha : 0xC2 ≤ a.toNat ∧ a.toNat < 0xE0)
    (hx : 0x80 ≤ x.toNat ∧ x.toNat ≤ 0xBF)
    (h : (a.toNat - 0xC0) * 64 + (x.toNat - 0x80) = v) :
    ∃ c : Char, c.toNat = v ∧ utf8EncodeChar c = [a, x] := by
  have hv : v.isValidChar := Or.inl (by omega)
  refine exists_char_of_map_toNat hv ?_
  rw [map_toNat_utf8EncodeChar, Char.toNat_ofNat, if_pos hv, if_neg (by omega),
    if_pos (by omega)]
  simp only [List.map_cons, List.map_nil, List.cons.injEq, and_true]
  omega

/-- Three bytes must not be overlong and not spell a surrogate. -/
theorem exists_char_of_three (ha : 0xE0 ≤ a.toNat ∧ a.toNat < 0xF0)
    (hx : 0x80 ≤ x.toNat ∧ x.toNat ≤ 0xBF) (hy : 0x80 ≤ y.toNat ∧ y.toNat ≤ 0xBF)
    (hlong : a.toNat = 0xE0 → 0xA0 ≤ x.toNat) (hsurrogate : a.toNat = 0xED → x.toNat ≤ 0x9F)
    (h : ((a.toNat - 0xE0) * 64 + (x.toNat - 0x80)) * 64 + (y.toNat - 0x80) = v) :
    ∃ c : Char, c.toNat = v ∧ utf8EncodeChar c = [a, x, y] := by
  have hv : v.isValidChar := by
    change v < 0xD800 ∨ 0xDFFF < v ∧ v < 0x110000
    omega
  refine exists_char_of_map_toNat hv ?_
  rw [map_toNat_utf8EncodeChar, Char.toNat_ofNat, if_pos hv, if_neg (by omega),
    if_neg (by omega), if_pos (by omega)]
  simp only [List.map_cons, List.map_nil, List.cons.injEq, and_true]
  omega

/-- Four bytes must not be overlong and not spell more than the last code point. -/
theorem exists_char_of_four (ha : 0xF0 ≤ a.toNat ∧ a.toNat ≤ 0xF4)
    (hx : 0x80 ≤ x.toNat ∧ x.toNat ≤ 0xBF) (hy : 0x80 ≤ y.toNat ∧ y.toNat ≤ 0xBF)
    (hz : 0x80 ≤ z.toNat ∧ z.toNat ≤ 0xBF)
    (hlong : a.toNat = 0xF0 → 0x90 ≤ x.toNat) (hlast : a.toNat = 0xF4 → x.toNat ≤ 0x8F)
    (h : (((a.toNat - 0xF0) * 64 + (x.toNat - 0x80)) * 64 + (y.toNat - 0x80)) * 64 +
      (z.toNat - 0x80) = v) :
    ∃ c : Char, c.toNat = v ∧ utf8EncodeChar c = [a, x, y, z] := by
  have hv : v.isValidChar := by
    change v < 0xD800 ∨ 0xDFFF < v ∧ v < 0x110000
    omega
  refine exists_char_of_map_toNat hv ?_
  rw [map_toNat_utf8EncodeChar, Char.toNat_ofNat, if_pos hv, if_neg (by omega),
    if_neg (by omega), if_neg (by omega)]
  simp only [List.map_cons, List.map_nil, List.cons.injEq, and_true]
  omega

/-! ### Characters that are begun -/

namespace PartialChar

/-- The bytes finish the character, and `v` is its code point. -/
def Finishes (v : Nat) : PartialChar → List UInt8 → Prop
  | _, [] => False
  | p, b :: rest =>
    (p.low ≤ b.toNat ∧ b.toNat ≤ p.high) ∧
      if p.needed = 1 then rest = [] ∧ p.bits * 64 + (b.toNat - 0x80) = v
      else Finishes v ⟨p.needed - 1, 0x80, 0xBF, p.bits * 64 + (b.toNat - 0x80), p.seen + 1⟩ rest

/-- The bytes that finish a character are at least one, and the first of them lies in its bounds. -/
theorem Finishes.exists_cons {p : PartialChar} {back : List UInt8} (h : p.Finishes v front)
    (hsplit : b :: rest = front ++ back) :
    ∃ more, front = b :: more ∧ rest = more ++ back ∧ p.low ≤ b.toNat ∧ b.toNat ≤ p.high := by
  cases front with
  | nil => exact h.elim
  | cons x more =>
    obtain ⟨rfl, rfl⟩ := List.cons.inj hsplit
    exact ⟨more, rfl, rfl, h.1⟩

variable {low high bits seen : Nat}

theorem finishes_last_iff : Finishes v ⟨1, low, high, bits, seen⟩ front ↔
    ∃ x : UInt8, front = [x] ∧ (low ≤ x.toNat ∧ x.toNat ≤ high) ∧
      bits * 64 + (x.toNat - 0x80) = v := by
  cases front with
  | nil => simp [Finishes]
  | cons x rest =>
    simp only [Finishes, if_true, List.cons.injEq]
    constructor
    · rintro ⟨hx, rfl, hv⟩
      exact ⟨x, ⟨rfl, rfl⟩, hx, hv⟩
    · rintro ⟨x, ⟨rfl, rfl⟩, hx, hv⟩
      exact ⟨hx, rfl, hv⟩

theorem finishes_next_iff {needed : Nat} :
    Finishes v ⟨needed + 2, low, high, bits, seen⟩ front ↔
      ∃ (x : UInt8) (rest : List UInt8), front = x :: rest ∧
        (low ≤ x.toNat ∧ x.toNat ≤ high) ∧
          Finishes v ⟨needed + 1, 0x80, 0xBF, bits * 64 + (x.toNat - 0x80), seen + 1⟩ rest := by
  cases front with
  | nil => simp [Finishes]
  | cons x rest =>
    simp only [Finishes, List.cons.injEq]
    constructor
    · rintro ⟨hx, hrest⟩
      exact ⟨x, rest, ⟨rfl, rfl⟩, hx, by simpa using hrest⟩
    · rintro ⟨x, rest, ⟨rfl, rfl⟩, hx, hrest⟩
      exact ⟨hx, by simpa using hrest⟩

theorem ofLead?_of_two {n : Nat} (hn : 0xC2 ≤ n ∧ n < 0xE0) :
    ofLead? n = some ⟨1, 0x80, 0xBF, n - 0xC0, 1⟩ := by
  unfold ofLead?
  rw [if_neg (by omega), if_pos (by omega)]

theorem ofLead?_of_three {n : Nat} (hn : 0xE0 ≤ n ∧ n < 0xF0) :
    ofLead? n = some ⟨2, if n = 0xE0 then 0xA0 else 0x80, if n = 0xED then 0x9F else 0xBF,
      n - 0xE0, 1⟩ := by
  by_cases hlong : n = 0xE0
  · subst hlong
    rfl
  · by_cases hsurrogate : n = 0xED
    · subst hsurrogate
      rfl
    · unfold ofLead?
      rw [if_neg (by omega), if_neg (by omega), if_neg hlong, if_neg hsurrogate,
        if_pos (by omega), if_neg hlong, if_neg hsurrogate]

theorem ofLead?_of_four {n : Nat} (hn : 0xF0 ≤ n ∧ n ≤ 0xF4) :
    ofLead? n = some ⟨3, if n = 0xF0 then 0x90 else 0x80, if n = 0xF4 then 0x8F else 0xBF,
      n - 0xF0, 1⟩ := by
  by_cases hlong : n = 0xF0
  · subst hlong
    rfl
  · by_cases hlast : n = 0xF4
    · subst hlast
      rfl
    · unfold ofLead?
      rw [if_neg (by omega), if_neg (by omega), if_neg (by omega), if_neg (by omega),
        if_neg (by omega), if_neg hlong, if_pos (by omega), if_neg hlong, if_neg hlast]

theorem ofLead?_of_outside {n : Nat} (hn : n < 0xC2 ∨ 0xF4 < n) : ofLead? n = none := by
  unfold ofLead?
  split_ifs <;> first | rfl | omega

/-- What a first byte begins is finished only by the other bytes of some encoding. -/
theorem exists_char_of_finishes {p : PartialChar} (hp : ofLead? a.toNat = some p)
    (h : p.Finishes v front) : ∃ c : Char, c.toNat = v ∧ utf8EncodeChar c = a :: front := by
  rcases (by omega : (a.toNat < 0xC2 ∨ 0xF4 < a.toNat) ∨ (0xC2 ≤ a.toNat ∧ a.toNat < 0xE0) ∨
    (0xE0 ≤ a.toNat ∧ a.toNat < 0xF0) ∨ (0xF0 ≤ a.toNat ∧ a.toNat ≤ 0xF4)) with ha | ha | ha | ha
  · rw [ofLead?_of_outside ha] at hp
    exact absurd hp (by simp)
  · rw [ofLead?_of_two ha] at hp
    cases hp
    obtain ⟨x, rfl, hx, hv⟩ := finishes_last_iff.mp h
    exact exists_char_of_two ha hx hv
  · rw [ofLead?_of_three ha] at hp
    cases hp
    obtain ⟨x, _, rfl, hx, h⟩ := finishes_next_iff.mp h
    obtain ⟨y, rfl, hy, hv⟩ := finishes_last_iff.mp h
    split_ifs at hx <;>
      exact exists_char_of_three ha (by omega) hy (by omega) (by omega) hv
  · rw [ofLead?_of_four ha] at hp
    cases hp
    obtain ⟨x, _, rfl, hx, h⟩ := finishes_next_iff.mp h
    obtain ⟨y, _, rfl, hy, h⟩ := finishes_next_iff.mp h
    obtain ⟨z, rfl, hz, hv⟩ := finishes_last_iff.mp h
    split_ifs at hx <;>
      exact exists_char_of_four ha (by omega) hy hz (by omega) (by omega) hv

/-- The encoding of a character that is not ASCII begins it, and finishes it. -/
theorem finishes_of_utf8EncodeChar {c : Char} (hc : utf8EncodeChar c = a :: front)
    (ha : 0x80 ≤ a.toNat) : ∃ p, ofLead? a.toNat = some p ∧ p.Finishes c.toNat front := by
  have hvalid : c.toNat < 0xD800 ∨ 0xDFFF < c.toNat ∧ c.toNat < 0x110000 := c.valid
  have hbytes := map_toNat_utf8EncodeChar c
  rw [hc, List.map_cons] at hbytes
  split_ifs at hbytes with hone htwo hthree
  · obtain ⟨hfirst, -⟩ := List.cons.inj hbytes
    omega
  · obtain ⟨hfirst, hrest⟩ := List.cons.inj hbytes
    obtain ⟨x, rfl, hx⟩ := List.map_eq_singleton_iff.mp hrest
    exact ⟨_, ofLead?_of_two (by omega),
      finishes_last_iff.mpr ⟨x, rfl, by omega, by omega⟩⟩
  · obtain ⟨hfirst, hrest⟩ := List.cons.inj hbytes
    obtain ⟨x, _, rfl, hx, hrest⟩ := List.map_eq_cons_iff.mp hrest
    obtain ⟨y, rfl, hy⟩ := List.map_eq_singleton_iff.mp hrest
    refine ⟨_, ofLead?_of_three (by omega), finishes_next_iff.mpr ⟨x, [y], rfl, ?_,
      finishes_last_iff.mpr ⟨y, rfl, by omega, by omega⟩⟩⟩
    split_ifs <;> omega
  · obtain ⟨hfirst, hrest⟩ := List.cons.inj hbytes
    obtain ⟨x, _, rfl, hx, hrest⟩ := List.map_eq_cons_iff.mp hrest
    obtain ⟨y, _, rfl, hy, hrest⟩ := List.map_eq_cons_iff.mp hrest
    obtain ⟨z, rfl, hz⟩ := List.map_eq_singleton_iff.mp hrest
    refine ⟨_, ofLead?_of_four (by omega), finishes_next_iff.mpr ⟨x, [y, z], rfl, ?_,
      finishes_next_iff.mpr ⟨y, [z], rfl, by omega,
        finishes_last_iff.mpr ⟨z, rfl, by omega, by omega⟩⟩⟩⟩
    split_ifs <;> omega

end PartialChar

/-! ### Reading on -/

open PartialChar

/-- A character that is begun is finished by the next bytes, or the reading fails. -/
theorem decodeUtf8From_some_eq_ok_iff {p : PartialChar} {done : List Char} {index : Nat}
    {bytes : List UInt8} {cs : List Char} :
    decodeUtf8From done index (some p) bytes = .ok cs ↔
      ∃ v front back, bytes = front ++ back ∧ p.Finishes v front ∧
        decodeUtf8From (Char.ofNat v :: done) (index + front.length) none back = .ok cs := by
  induction bytes generalizing p index with
  | nil =>
    constructor
    · intro h
      exact absurd h (by simp [decodeUtf8From])
    · rintro ⟨v, front, back, hnil, hfinishes, -⟩
      obtain ⟨rfl, -⟩ := List.append_eq_nil_iff.mp hnil.symm
      exact hfinishes.elim
  | cons b rest ih =>
    by_cases hrange : p.low ≤ b.toNat ∧ b.toNat ≤ p.high
    · by_cases hlast : p.needed = 1
      · simp only [decodeUtf8From, if_pos hrange, if_pos hlast]
        constructor
        · intro h
          exact ⟨_, [b], rest, rfl, ⟨hrange, by rw [if_pos hlast]; exact ⟨rfl, rfl⟩⟩, h⟩
        · rintro ⟨v, front, back, hsplit, hfinishes, h⟩
          obtain ⟨more, rfl, rfl, -⟩ := hfinishes.exists_cons hsplit
          obtain ⟨-, hv⟩ := hfinishes
          rw [if_pos hlast] at hv
          obtain ⟨rfl, rfl⟩ := hv
          exact h
      · simp only [decodeUtf8From, if_pos hrange, if_neg hlast, ih]
        constructor
        · rintro ⟨v, front, back, rfl, hfinishes, h⟩
          refine ⟨v, b :: front, back, rfl, ⟨hrange, by rwa [if_neg hlast]⟩, ?_⟩
          rwa [List.length_cons, Nat.add_comm front.length, ← Nat.add_assoc]
        · rintro ⟨v, front, back, hsplit, hfinishes, h⟩
          obtain ⟨more, rfl, rfl, -⟩ := hfinishes.exists_cons hsplit
          obtain ⟨-, hv⟩ := hfinishes
          rw [if_neg hlast] at hv
          refine ⟨v, more, back, rfl, hv, ?_⟩
          rwa [List.length_cons, Nat.add_comm more.length, ← Nat.add_assoc] at h
    · simp only [decodeUtf8From, if_neg hrange]
      constructor
      · intro h
        exact absurd h (by simp)
      · rintro ⟨v, front, back, hsplit, hfinishes, -⟩
        obtain ⟨more, -, -, hb⟩ := hfinishes.exists_cons hsplit
        exact absurd hb hrange

/-- A byte below 0x80 is a character by itself. -/
theorem eq_of_utf8EncodeChar {c : Char} (hc : utf8EncodeChar c = a :: front)
    (ha : a.toNat < 0x80) : Char.ofNat a.toNat = c ∧ front = [] := by
  have hbytes := map_toNat_utf8EncodeChar c
  rw [hc, List.map_cons] at hbytes
  split_ifs at hbytes
  · obtain ⟨hfirst, hrest⟩ := List.cons.inj hbytes
    exact ⟨by rw [hfirst, Char.ofNat_toNat], List.map_eq_nil_iff.mp hrest⟩
  all_goals
    obtain ⟨hfirst, -⟩ := List.cons.inj hbytes
    omega

/-- The reader takes the bytes of one character, or it fails. -/
theorem decodeUtf8From_cons_eq_ok_iff {done : List Char} {index : Nat} {cs : List Char} :
    decodeUtf8From done index none (a :: rest) = .ok cs ↔
      ∃ c front back, utf8EncodeChar c = a :: front ∧ rest = front ++ back ∧
        decodeUtf8From (c :: done) (index + 1 + front.length) none back = .ok cs := by
  by_cases ha : a.toNat < 0x80
  · simp only [decodeUtf8From, if_pos ha]
    constructor
    · intro h
      obtain ⟨c, hc, hbytes⟩ := exists_char_of_one ha
      rw [← hc, Char.ofNat_toNat] at h
      exact ⟨c, [], rest, hbytes, rfl, h⟩
    · rintro ⟨c, front, back, hbytes, rfl, h⟩
      obtain ⟨rfl, rfl⟩ := eq_of_utf8EncodeChar hbytes ha
      exact h
  · simp only [decodeUtf8From, if_neg ha]
    cases hp : ofLead? a.toNat with
    | none =>
      constructor
      · intro h
        exact absurd h (by simp)
      · rintro ⟨c, front, back, hbytes, -, -⟩
        obtain ⟨p, hp', -⟩ := finishes_of_utf8EncodeChar hbytes (by omega)
        rw [hp] at hp'
        exact absurd hp' (by simp)
    | some p =>
      simp only [decodeUtf8From_some_eq_ok_iff]
      constructor
      · rintro ⟨v, front, back, hsplit, hfinishes, h⟩
        obtain ⟨c, rfl, hbytes⟩ := exists_char_of_finishes hp hfinishes
        rw [Char.ofNat_toNat] at h
        exact ⟨c, front, back, hbytes, hsplit, h⟩
      · rintro ⟨c, front, back, hbytes, hsplit, h⟩
        obtain ⟨p', hp', hfinishes⟩ := finishes_of_utf8EncodeChar hbytes (by omega)
        rw [hp, Option.some.injEq] at hp'
        subst hp'
        refine ⟨c.toNat, front, back, hsplit, hfinishes, ?_⟩
        rwa [Char.ofNat_toNat]

theorem decodeUtf8From_eq_ok_iff {done : List Char} {index : Nat} {bytes : List UInt8}
    {cs : List Char} : decodeUtf8From done index none bytes = .ok cs ↔
      ∃ ds, cs = done.reverse ++ ds ∧ bytes = ds.flatMap utf8EncodeChar := by
  induction hn : bytes.length using Nat.strongRecOn generalizing bytes done index with
  | ind n ih =>
    cases bytes with
    | nil =>
      simp only [decodeUtf8From, Except.ok.injEq]
      constructor
      · rintro rfl
        exact ⟨[], (List.append_nil _).symm, rfl⟩
      · rintro ⟨ds, rfl, hds⟩
        cases ds with
        | nil => rw [List.append_nil]
        | cons c ds =>
          rw [List.flatMap_cons] at hds
          exact absurd (List.append_eq_nil_iff.mp hds.symm).1 (utf8EncodeChar_ne_nil c)
    | cons a rest =>
      rw [List.length_cons] at hn
      rw [decodeUtf8From_cons_eq_ok_iff]
      constructor
      · rintro ⟨c, front, back, hbytes, rfl, h⟩
        rw [List.length_append] at hn
        obtain ⟨ds, rfl, rfl⟩ := (ih back.length (by omega) rfl).mp h
        exact ⟨c :: ds, by simp, by rw [List.flatMap_cons, hbytes]; rfl⟩
      · rintro ⟨ds, rfl, hds⟩
        cases ds with
        | nil => exact absurd hds (by simp)
        | cons c ds =>
          obtain ⟨b, front, hbytes⟩ := List.exists_cons_of_ne_nil (utf8EncodeChar_ne_nil c)
          rw [List.flatMap_cons, hbytes, List.cons_append] at hds
          obtain ⟨rfl, rfl⟩ := List.cons.inj hds
          rw [List.length_append] at hn
          refine ⟨c, front, ds.flatMap utf8EncodeChar, hbytes, rfl, ?_⟩
          exact (ih _ (by omega) rfl).mpr ⟨ds, by simp, rfl⟩

/-- The bytes of a text in UTF-8. -/
theorem toList_toUTF8 (text : String) :
    text.toUTF8.data.toList = text.toList.flatMap utf8EncodeChar := by
  have hbytes : text.toUTF8 = text.toList.utf8Encode := by
    rw [← String.toByteArray_ofList, String.ofList_toList]
    rfl
  rw [hbytes, List.utf8Encode, List.toList_data_toByteArray]

/-- Only a character of ASCII has a byte below 0x80 in its encoding. -/
theorem toNat_eq_of_mem_utf8EncodeChar {c : Char} {b : UInt8} (hb : b ∈ utf8EncodeChar c)
    (hlow : b.toNat < 0x80) : c.toNat = b.toNat := by
  have hmem : b.toNat ∈ (utf8EncodeChar c).map UInt8.toNat := List.mem_map_of_mem hb
  rw [map_toNat_utf8EncodeChar] at hmem
  split_ifs at hmem <;> simp at hmem <;> omega

theorem exists_char_of_mem_toUTF8 {text : String} {b : UInt8} (hb : b ∈ text.toUTF8.data.toList)
    (hlow : b.toNat < 0x80) : ∃ c ∈ text.toList, c.toNat = b.toNat := by
  rw [toList_toUTF8, List.mem_flatMap] at hb
  obtain ⟨c, hc, hb⟩ := hb
  exact ⟨c, hc, toNat_eq_of_mem_utf8EncodeChar hb hlow⟩

/-- Bytes are read as a text exactly if they are the text in UTF-8. -/
theorem decodeUtf8_eq_ok_iff {bytes : List UInt8} {cs : List Char} :
    decodeUtf8 bytes = .ok cs ↔ bytes = (String.ofList cs).toUTF8.data.toList := by
  rw [decodeUtf8, decodeUtf8From_eq_ok_iff, toList_toUTF8, String.toList_ofList]
  simp

theorem decodeUtf8_toUTF8 (text : String) :
    decodeUtf8 text.toUTF8.data.toList = .ok text.toList := by
  rw [decodeUtf8_eq_ok_iff, String.ofList_toList]

end Criteria.Text
