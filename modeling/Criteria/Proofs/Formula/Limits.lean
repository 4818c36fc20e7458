import Criteria.Proofs.Formula.Read
import Criteria.Proofs.Grammar.Halt

/-!
Rule texts under tighter and looser limits. The machine goes through the same states under both
until it meets the tighter limit. So limits refuse texts, but never change what is read, nor which
other fault is found.
-/

set_option autoImplicit false
set_option relaxedAutoImplicit false

namespace Criteria

open Grammar

/-- Limits that allow no more tokens and no deeper groups than others. -/
instance : LE Limits :=
  ⟨fun tight loose ↦ tight.maxTokens ≤ loose.maxTokens ∧ tight.maxDepth ≤ loose.maxDepth⟩

instance (tight loose : Limits) : Decidable (tight ≤ loose) :=
  inferInstanceAs (Decidable (_ ∧ _))

/-- Whether a text is refused for its size alone. -/
def Fault.isLimit : Fault → Bool
  | .grammatical fault => Grammar.isLimit fault.cause
  | _ => false

namespace Formula

variable {tight loose : Limits}

theorem parse_eq_or_isLimit (h : tight ≤ loose) (tokens : List Token) :
    parse tight tokens = parse loose tokens ∨
      ∃ fault, parse tight tokens = .error fault ∧ isLimit fault.cause = true := by
  by_cases hnil : tokens = []
  · exact Or.inl (by rw [hnil]; rfl)
  · by_cases hcount : tokens.length ≤ tight.maxTokens
    · rw [parse_eq_parseFrom hnil hcount, parse_eq_parseFrom hnil (hcount.trans h.1)]
      refine (parseFrom_eq_or_tooDeep h.2 _ [] (.wanting none) tokens).imp_right ?_
      rintro ⟨offset, hdeep⟩
      exact ⟨_, hdeep, rfl⟩
    · exact Or.inr ⟨_, parse_of_tooMany hnil (Nat.not_le.mp hcount), rfl⟩

/-- Under tighter limits a text is read with the same result, or a limit is its fault. -/
theorem read_eq_or_isLimit (h : tight ≤ loose) (s : String) :
    read tight s = read loose s ∨
      ∃ fault, read tight s = .error fault ∧ fault.isLimit = true := by
  cases hscan : Token.scan s with
  | error fault => exact Or.inl (by rw [read_of_scan_error hscan, read_of_scan_error hscan])
  | ok tokens =>
    rw [read_of_scan hscan, read_of_scan hscan]
    rcases parse_eq_or_isLimit h tokens with hsame | ⟨fault, hfault, hlimit⟩
    · exact Or.inl (by rw [hsame])
    · exact Or.inr ⟨.grammatical fault, by rw [hfault]; rfl, hlimit⟩

/-- Limits only refuse. What looser limits let through is the same formula under tighter ones, or
is refused for a limit; a fault stays the same fault, or gives way to a limit; and what tighter
limits let through is the same formula under looser ones. -/
theorem limits_only_refuse (tight loose : Limits) (h : tight ≤ loose) (s : String) :
    (∀ f, read loose s = .ok f → read tight s = .ok f ∨
      ∃ limit, read tight s = .error limit ∧ limit.isLimit = true) ∧
    (∀ fault, read loose s = .error fault → read tight s = .error fault ∨
      ∃ limit, read tight s = .error limit ∧ limit.isLimit = true) ∧
    ∀ f, read tight s = .ok f → read loose s = .ok f := by
  have hcases := read_eq_or_isLimit h s
  refine ⟨fun f hf ↦ ?_, fun fault hfault ↦ ?_, fun f hf ↦ ?_⟩
  · rwa [hf] at hcases
  · rwa [hfault] at hcases
  · rcases hcases with hsame | ⟨limit, hlimit, -⟩
    · rw [← hsame, hf]
    · rw [hf] at hlimit
      cases hlimit

/-- One group may not stand in another under the tighter limits, which otherwise find the same
fault. -/
theorem limits_only_refuse_of_groups :
    (⟨7, 1⟩ : Limits) ≤ ⟨9, 2⟩ ∧
      (∃ f, read ⟨9, 2⟩ "((a = 1))" = .ok f ∧
        ∃ limit, read ⟨7, 1⟩ "((a = 1))" = .error limit ∧ limit.isLimit = true) ∧
      read ⟨9, 2⟩ "(a = 1) b" = .error (.grammatical ⟨8, .trailing "b"⟩) ∧
      read ⟨7, 1⟩ "(a = 1) b" = .error (.grammatical ⟨8, .trailing "b"⟩) ∧
      ∃ f, read ⟨7, 1⟩ "(a = 1)" = .ok f ∧ read ⟨9, 2⟩ "(a = 1)" = .ok f := by
  have hle : (⟨7, 1⟩ : Limits) ≤ ⟨9, 2⟩ := by decide
  have hnested := read_eq_ok_get ⟨9, 2⟩ "((a = 1))" (by decide +kernel)
  have hsingle := read_eq_ok_get ⟨7, 1⟩ "(a = 1)" (by decide +kernel)
  have htokens : Token.scan "(a = 1) b" = .ok [⟨.leftParen, "(", 0⟩, ⟨.identifier, "a", 1⟩,
      ⟨.comparison, "=", 3⟩, ⟨.number, "1", 5⟩, ⟨.rightParen, ")", 6⟩, ⟨.identifier, "b", 8⟩] := by
    decide +kernel
  have htrailing : read ⟨9, 2⟩ "(a = 1) b" = .error (.grammatical ⟨8, .trailing "b"⟩) := by
    rw [read_of_scan htokens]
    rfl
  obtain ⟨hread, -, -⟩ := limits_only_refuse _ _ hle "((a = 1))"
  obtain ⟨-, hfault, -⟩ := limits_only_refuse _ _ hle "(a = 1) b"
  obtain ⟨-, -, hloose⟩ := limits_only_refuse _ _ hle "(a = 1)"
  refine ⟨hle, ⟨_, hnested, (hread _ hnested).resolve_left fun htight ↦ ?_⟩, htrailing,
    (hfault _ htrailing).resolve_right ?_, _, hsingle, hloose _ hsingle⟩
  · have hrefused : (read ⟨7, 1⟩ "((a = 1))").toOption.isNone = true := by decide +kernel
    rw [htight] at hrefused
    cases hrefused
  · rintro ⟨limit, hread, hlimit⟩
    rw [read_of_scan htokens] at hread
    cases hread
    cases hlimit

end Formula

end Criteria
