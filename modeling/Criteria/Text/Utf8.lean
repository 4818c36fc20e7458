/-!
UTF-8 read byte by byte. A byte that no character allows at its place ends the reading, and the
fault names the place where the unfinished character began and how many of its bytes still fitted.
-/

set_option autoImplicit false
set_option relaxedAutoImplicit false

namespace Criteria.Text

/-- Why bytes are not UTF-8. An `incomplete` character could have been finished by more bytes. -/
inductive Utf8Fault where
  | invalid (length : Nat) (index : Nat)
  | incomplete (index : Nat)
  deriving DecidableEq, Repr

def Utf8Fault.message : Utf8Fault → String
  | .invalid length index =>
    "invalid utf-8 sequence of " ++ toString length ++ " bytes from index " ++ toString index
  | .incomplete index =>
    "incomplete utf-8 byte sequence from index " ++ toString index

/-- A character whose first bytes are read: how many bytes it still needs, the bounds of the next
one, the bits read so far and the number of bytes that held them. -/
structure PartialChar where
  needed : Nat
  low : Nat
  high : Nat
  bits : Nat
  seen : Nat
  deriving DecidableEq, Repr

/-- What a first byte above ASCII begins. The bounds of the second byte leave out overlong forms,
surrogates and code points beyond U+10FFFF. -/
def PartialChar.ofLead? (b : Nat) : Option PartialChar :=
  if b < 0xC2 then none
  else if b < 0xE0 then some ⟨1, 0x80, 0xBF, b - 0xC0, 1⟩
  else if b = 0xE0 then some ⟨2, 0xA0, 0xBF, 0, 1⟩
  else if b = 0xED then some ⟨2, 0x80, 0x9F, 0xD, 1⟩
  else if b < 0xF0 then some ⟨2, 0x80, 0xBF, b - 0xE0, 1⟩
  else if b = 0xF0 then some ⟨3, 0x90, 0xBF, 0, 1⟩
  else if b < 0xF4 then some ⟨3, 0x80, 0xBF, b - 0xF0, 1⟩
  else if b = 0xF4 then some ⟨3, 0x80, 0x8F, 4, 1⟩
  else none

/-- Reads on from the middle of a text: `done` holds the characters read, last first, and `index`
counts the bytes read. -/
def decodeUtf8From (done : List Char) (index : Nat) (current : Option PartialChar) :
    List UInt8 → Except Utf8Fault (List Char)
  | [] =>
    match current with
    | none => .ok done.reverse
    | some p => .error (.incomplete (index - p.seen))
  | b :: rest =>
    let n := b.toNat
    match current with
    | none =>
      if n < 0x80 then decodeUtf8From (Char.ofNat n :: done) (index + 1) none rest
      else
        match PartialChar.ofLead? n with
        | none => .error (.invalid 1 index)
        | some p => decodeUtf8From done (index + 1) (some p) rest
    | some p =>
      if p.low ≤ n ∧ n ≤ p.high then
        let bits := p.bits * 64 + (n - 0x80)
        if p.needed = 1 then decodeUtf8From (Char.ofNat bits :: done) (index + 1) none rest
        else
          decodeUtf8From done (index + 1)
            (some ⟨p.needed - 1, 0x80, 0xBF, bits, p.seen + 1⟩) rest
      else .error (.invalid p.seen (index - p.seen))

def decodeUtf8 (bytes : List UInt8) : Except Utf8Fault (List Char) :=
  decodeUtf8From [] 0 none bytes

end Criteria.Text
