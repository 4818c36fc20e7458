import Criteria.Formula.Read
import Criteria.Proofs.Grammar.Machine
import Criteria.Proofs.Token.Scan

/-!
Rule texts read through their lexemes. A text spells a formula if its lexemes do and keep the
limits, so two texts with the same lexemes spell the same formula; blanks around a text do not
count.
-/

set_option autoImplicit false
set_option relaxedAutoImplicit false

namespace Criteria

/-- A phrase, a connective and another phrase. -/
def Lexeme.join (connective : Connective) (ls ms : List Lexeme) : List Lexeme :=
  ls ++ ⟨.connective, connective.symbol⟩ :: ms

namespace Formula

open Grammar Token

variable {limits : Limits} {s t : String} {f : Formula}

theorem read_of_scan_error {fault : LexicalFault} (h : scan s = .error fault) :
    read limits s = .error (.lexical fault) := by
  rw [read, h]

theorem read_of_scan {tokens : List Token} (h : scan s = .ok tokens) :
    read limits s = (parse limits tokens).mapError .grammatical := by
  simp only [read, h]
  cases parse limits tokens <;> rfl

theorem read_eq_ok_get (limits : Limits) (s : String)
    (h : (read limits s).toOption.isSome = true) :
    read limits s = .ok ((read limits s).toOption.get h) := by
  generalize read limits s = e at h ⊢
  cases e with
  | ok f => rfl
  | error fault => exact absurd h Bool.false_ne_true

/-- A text spells a formula exactly if its lexemes keep the limits and spell it by the grammar. -/
theorem read_eq_ok_iff :
    read limits s = .ok f ↔ ∃ ls, lexemes? s.toList = some ls ∧ ls.length ≤ limits.maxTokens ∧
      nesting ls ≤ limits.maxDepth ∧ Derives .expression ls f := by
  cases hscan : scan s with
  | error fault =>
    have hnone : lexemes? s.toList = none := by
      change scanFrom [] 0 s.toList = .error fault at hscan
      rw [lexemes?, hscan]
      rfl
    rw [read_of_scan_error hscan, hnone]
    simp
  | ok tokens =>
    have hsome : lexemes? s.toList = some (tokens.map lexeme) :=
      lexemes?_eq_some_iff.mpr ⟨tokens, hscan, rfl⟩
    have hparse : read limits s = .ok f ↔ parse limits tokens = .ok f := by
      rw [read_of_scan hscan]
      cases parse limits tokens <;> simp [Except.mapError]
    rw [hparse, parse_eq_ok_iff, hsome]
    simp

/-- Whether a text is made of tokens, but has more of them or deeper groups than the limits
allow. -/
def Exceeds (limits : Limits) (s : String) : Prop :=
  ∃ ls, lexemes? s.toList = some ls ∧ (limits.maxTokens < ls.length ∨ limits.maxDepth < nesting ls)

/-- A text of the grammar that breaks a limit is refused for that limit. -/
theorem read_of_exceeds {ls : List Lexeme} (hls : lexemes? s.toList = some ls)
    (h : Derives .expression ls f)
    (hlimits : limits.maxTokens < ls.length ∨ limits.maxDepth < nesting ls) :
    ∃ fault, read limits s = .error (.grammatical fault) ∧ isLimit fault.cause = true := by
  obtain ⟨tokens, hscan, rfl⟩ := lexemes?_eq_some_iff.mp hls
  rw [List.length_map] at hlimits
  obtain ⟨fault, hparse, hcause⟩ := parse_of_derives_of_exceeds h hlimits
  refine ⟨fault, ?_, hcause⟩
  rw [read_of_scan hscan, hparse]
  rfl

/-- A text is refused for what its characters are, or for how its tokens stand together. -/
theorem exists_cause_of_read_error {fault : Fault} (h : read limits s = .error fault) :
    (∃ cause, fault = .lexical cause) ∨
      ∃ tokens cause, parse limits tokens = .error cause ∧ fault = .grammatical cause := by
  unfold read at h
  split at h
  · rename_i cause hscan
    exact Or.inl ⟨cause, (Except.error.inj h).symm⟩
  · rename_i tokens hscan
    split at h
    · rename_i cause hparse
      exact Or.inr ⟨tokens, cause, hparse, (Except.error.inj h).symm⟩
    · exact absurd h (by simp)

/-- A text that is refused is the caller's fault. -/
theorem status_of_read_error {fault : Fault} (h : read limits s = .error fault) :
    fault.status = 400 := by
  rcases exists_cause_of_read_error h with ⟨cause, rfl⟩ | ⟨tokens, cause, -, rfl⟩ <;> rfl

/-- Texts with the same lexemes spell the same formulas. -/
theorem read_eq_ok_congr (h : lexemes? s.toList = lexemes? t.toList) :
    read limits s = .ok f ↔ read limits t = .ok f := by
  rw [read_eq_ok_iff, read_eq_ok_iff, h]

theorem read_trim_eq_ok_iff : read limits (Text.trim s) = .ok f ↔ read limits s = .ok f := by
  refine read_eq_ok_congr ?_
  rw [Text.trim, String.toList_ofList, lexemes?_trimChars]

theorem whole_connective (op : Connective) : Lexeme.Whole ⟨.connective, op.symbol⟩ := by
  cases op <;> rfl

theorem derives_join {connective : Connective} {ls ms : List Lexeme} {g : Formula}
    (hf : Derives .expression ls f) (hg : Derives .condition ms g) :
    Derives .expression (Lexeme.join connective ls ms) (.join connective f g) := by
  have hconnective : Connective.ofSymbol? connective.symbol = some connective := by
    cases connective <;> rfl
  exact .chain hf rfl hconnective hg

end Formula

end Criteria
