import Criteria.Instant

/-!
Identifiers for rules: 128 bits in hexadecimal, of which the first 48 count the milliseconds since
1970 and six say of which kind the identifier is; the rest are random. Each part has a fixed number
of digits, so the text tells the milliseconds and the random bits apart: two identifiers are the
same only if they were made in one millisecond with the same random bits.
-/

set_option autoImplicit false
set_option relaxedAutoImplicit false

namespace Criteria

/-- What a call takes from outside: an identifier that no rule has, and the time. -/
structure Fresh where
  id : String
  now : Instant
  deriving DecidableEq, Repr

namespace Identifier

/-- The number in hexadecimal with `width` digits. -/
def hex (width n : Nat) : List Char :=
  let digits := Nat.toDigits 16 n
  List.replicate (width - digits.length) '0' ++ digits

/-- The identifier of a moment, made with at least 74 random bits. -/
def ofParts (millis random : Nat) : String :=
  String.ofList <| hex 8 (millis / 0x10000 % 0x100000000) ++ '-' :: hex 4 (millis % 0x10000) ++
    '-' :: hex 4 (0x7000 + random % 0x1000) ++
    '-' :: hex 4 (0x8000 + random / 0x1000 % 0x4000) ++
    '-' :: hex 12 (random / 0x4000000 % 0x1000000000000)

variable {width m n : Nat}

theorem length_hex (hwidth : 0 < width) (hn : n < Nat.pow 16 width) :
    (hex width n).length = width := by
  have hle := (Nat.length_toDigits_le_iff (by decide) hwidth).mpr hn
  rw [hex, List.length_append, List.length_replicate, Nat.sub_add_cancel hle]

/-- In one digit more the last digit stands behind those of a sixteenth of the number. -/
theorem hex_succ (hwidth : 0 < width) (n : Nat) :
    hex (width + 1) n = hex width (n / 16) ++ [Nat.digitChar (n % 16)] := by
  by_cases hn : n < 16
  · obtain ⟨width, rfl⟩ := Nat.exists_eq_add_of_lt hwidth
    rw [Nat.div_eq_of_lt hn, Nat.mod_eq_of_lt hn, hex, hex, Nat.toDigits_of_lt_base hn,
      Nat.toDigits_of_lt_base (by decide : 0 < 16)]
    simp [List.replicate_succ']
  · rw [hex, hex, Nat.toDigits_of_base_le (by decide) (Nat.le_of_not_lt hn), List.length_append,
      List.length_singleton, Nat.add_sub_add_right, List.append_assoc]

theorem digitChar_inj : ∀ m < 16, ∀ n < 16, Nat.digitChar m = Nat.digitChar n → m = n := by
  decide

/-- Of one width, different numbers have different digits. -/
theorem hex_inj (hm : m < Nat.pow 16 width) (hn : n < Nat.pow 16 width)
    (h : hex width m = hex width n) : m = n := by
  induction width generalizing m n with
  | zero => exact (Nat.lt_one_iff.mp hm).trans (Nat.lt_one_iff.mp hn).symm
  | succ width ih =>
    have hpow : Nat.pow 16 (width + 1) = Nat.pow 16 width * 16 := rfl
    by_cases hwidth : width = 0
    · subst hwidth
      have hm : m < 16 := hm
      have hn : n < 16 := hn
      rw [hex, hex, Nat.toDigits_of_lt_base hm, Nat.toDigits_of_lt_base hn] at h
      exact digitChar_inj m hm n hn (List.singleton_inj.mp h)
    · rw [hex_succ (Nat.pos_of_ne_zero hwidth), hex_succ (Nat.pos_of_ne_zero hwidth)] at h
      obtain ⟨hfront, hlast⟩ := List.append_inj' h rfl
      have hdiv : m / 16 = n / 16 := ih (by omega) (by omega) hfront
      have hmod := digitChar_inj _ (Nat.mod_lt m (by decide)) _ (Nat.mod_lt n (by decide))
        (List.singleton_inj.mp hlast)
      omega

/-- A part of an identifier with the hyphen before it can be split off its end. -/
theorem append_part_inj {front front' : List Char} (hwidth : 0 < width)
    (hm : m < Nat.pow 16 width) (hn : n < Nat.pow 16 width)
    (h : front ++ '-' :: hex width m = front' ++ '-' :: hex width n) :
    front = front' ∧ m = n := by
  have hlength : ('-' :: hex width m).length = ('-' :: hex width n).length := by
    rw [List.length_cons, List.length_cons, length_hex hwidth hm, length_hex hwidth hn]
  obtain ⟨hfront, hpart⟩ := List.append_inj' h hlength
  exact ⟨hfront, hex_inj hm hn (List.cons_inj_right _ |>.mp hpart)⟩

/-- An identifier tells the milliseconds and the random bits of which it is made. -/
theorem ofParts_inj {millis millis' random random' : Nat} (hmillis : millis < Nat.pow 2 48)
    (hmillis' : millis' < Nat.pow 2 48) (hrandom : random < Nat.pow 2 74)
    (hrandom' : random' < Nat.pow 2 74) (h : ofParts millis random = ofParts millis' random') :
    millis = millis' ∧ random = random' := by
  have hpow : Nat.pow 2 48 = 281474976710656 ∧ Nat.pow 2 74 = 18889465931478580854784 := ⟨rfl, rfl⟩
  have hwidths : Nat.pow 16 4 = 65536 ∧ Nat.pow 16 8 = 4294967296 ∧
      Nat.pow 16 12 = 281474976710656 := ⟨rfl, rfl, rfl⟩
  have hchars := String.ofList_injective h
  -- The parts come off the end one by one, the low bits first.
  obtain ⟨hchars, hlow⟩ := append_part_inj (by decide) (by omega) (by omega) hchars
  obtain ⟨hchars, hmiddle⟩ := append_part_inj (by decide) (by omega) (by omega) hchars
  obtain ⟨hchars, hhigh⟩ := append_part_inj (by decide) (by omega) (by omega) hchars
  obtain ⟨hchars, hlate⟩ := append_part_inj (by decide) (by omega) (by omega) hchars
  have hearly := hex_inj (by omega) (by omega) hchars
  omega

end Identifier

/-- What a call takes at a moment, with random bits for the identifier. -/
def Fresh.ofRandom (now : Instant) (random : Nat) : Fresh :=
  ⟨Identifier.ofParts (now.seconds.toNat * 1000 + now.nanos / 1000000) random, now⟩

end Criteria
