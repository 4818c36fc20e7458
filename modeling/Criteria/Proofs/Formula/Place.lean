import Criteria.Proofs.Formula.Read

/-!
Places in rule texts. A text that stands behind blanks is read as it is by itself, and what a fault
says of places moves by the bytes of the blanks; blanks behind a text move nothing. A fault of the
text as a whole has no place of its own and does not move.
-/

set_option autoImplicit false
set_option relaxedAutoImplicit false

namespace Criteria

open Text Token Grammar

/-- The number of bytes that the blanks at the beginning of a text take. -/
def Text.leadingBytes (s : String) : Nat :=
  byteLength (s.toList.takeWhile isBlank)

/-- Whether the cause lies in the text as a whole, and not at a place in it. -/
def ParseCause.isOverall : ParseCause → Bool
  | .emptyRule | .tooManyTokens .. => true
  | _ => false

/-- The fault of tokens that stand `n` bytes further on. -/
def ParseFault.shift (n : Nat) (fault : ParseFault) : ParseFault :=
  match fault.cause with
  | .emptyRule | .tooManyTokens .. => fault
  | .unclosedGroup opener => ⟨n + fault.offset, .unclosedGroup (n + opener)⟩
  | .unclosedGroupAt opener text => ⟨n + fault.offset, .unclosedGroupAt (n + opener) text⟩
  | cause => ⟨n + fault.offset, cause⟩

/-- The fault of a text that stands `n` bytes further on. -/
def Fault.shift (n : Nat) : Fault → Fault
  | .lexical fault => .lexical (fault.shift n)
  | .grammatical fault => .grammatical (fault.shift n)
  | fault => fault

theorem ParseFault.offset_shift (n : Nat) (fault : ParseFault) :
    (fault.shift n).offset = if fault.cause.isOverall then fault.offset else n + fault.offset := by
  obtain ⟨offset, cause⟩ := fault
  cases cause <;> rfl

theorem ParseFault.shift_zero (fault : ParseFault) : fault.shift 0 = fault := by
  obtain ⟨offset, cause⟩ := fault
  cases cause <;> simp [shift]

namespace Fault

theorem code_shift (n : Nat) (fault : Fault) : (fault.shift n).code = fault.code := by
  cases fault <;> rfl

theorem shift_zero (fault : Fault) : fault.shift 0 = fault := by
  cases fault <;> simp [shift, LexicalFault.shift, ParseFault.shift_zero]

end Fault

namespace Formula

variable {limits : Limits} {n : Nat}

/-! ### The machine -/

@[simp] theorem kind_shift (n : Nat) (t : Token) : (t.shift n).kind = t.kind := rfl

@[simp] theorem text_shift (n : Nat) (t : Token) : (t.shift n).text = t.text := rfl

@[simp] theorem offset_shift (n : Nat) (t : Token) : (t.shift n).offset = n + t.offset := rfl

theorem stop_shift (n : Nat) (t : Token) : (t.shift n).stop = n + t.stop :=
  Nat.add_assoc n t.offset t.text.utf8ByteSize

theorem condition_shift (n : Nat) (field comparison literal : Token) :
    condition (field.shift n) (comparison.shift n) (literal.shift n) =
      (condition field comparison literal).mapError (ParseFault.shift n) := by
  unfold condition
  by_cases hfield : field.kind = .identifier
  · by_cases hcomparison : comparison.kind = .comparison
    · cases hop : Comparison.ofSymbol? comparison.text with
      | none => simp [hfield, hcomparison, hop, Except.mapError, ParseFault.shift]
      | some op =>
        by_cases hliteral : literal.kind = .text ∨ literal.kind = .number <;>
          simp [hfield, hcomparison, hop, hliteral, Except.mapError, ParseFault.shift]
    · simp [hfield, hcomparison, Except.mapError, ParseFault.shift]
  · simp [hfield, Except.mapError, ParseFault.shift]

/-- A group whose parenthesis stands `n` bytes further on. -/
def Group.shift (n : Nat) (group : Group) : Group :=
  { group with opener := n + group.opener }

/-- The machine goes through the same states wherever the tokens stand. -/
theorem parseFrom_shift (n maxDepth stop : Nat) (groups : List Group) (focus : Focus)
    (tokens : List Token) :
    parseFrom maxDepth (n + stop) (groups.map (Group.shift n)) focus (tokens.map (shift n)) =
      (parseFrom maxDepth stop groups focus tokens).mapError (ParseFault.shift n) := by
  fun_induction parseFrom maxDepth stop groups focus tokens with
  | case1 => rfl
  | case2 groups pending t rest ht hfull =>
    rw [List.map_cons, parseFrom_open_tooDeep (t := t.shift n) ht (by simpa using hfull)]
    rfl
  | case3 groups pending t rest ht hroom ih =>
    rw [List.map_cons, parseFrom_open (t := t.shift n) ht (by simpa using hroom)]
    exact ih
  | case4 groups pending t ht op literal rest fault hcondition =>
    rw [parseFrom.eq_def]
    simp [ht, condition_shift, hcondition, Except.mapError]
  | case5 groups pending t ht op literal rest c hcondition ih =>
    have hshifted : condition (t.shift n) (op.shift n) (literal.shift n) = .ok c := by
      rw [condition_shift, hcondition]
      rfl
    exact (parseFrom_condition (t := t.shift n) ht hshifted _).trans ih
  | case6 groups pending t rest ht hshort =>
    rw [parseFrom.eq_def]
    rcases rest with _ | ⟨op, _ | ⟨literal, rest⟩⟩
    · simp [ht, Except.mapError, ParseFault.shift]
    · simp [ht, Except.mapError, ParseFault.shift]
    · exact absurd rfl (hshort op literal rest)
  | case7 => rfl
  | case8 => rfl
  | case9 groups f t rest ht hconnective =>
    rw [parseFrom.eq_def]
    simp [ht, hconnective, Except.mapError, ParseFault.shift]
  | case10 groups f t rest ht connective hconnective ih =>
    exact (parseFrom_connective (t := t.shift n) ht hconnective _).trans ih
  | case11 f t rest ht =>
    rw [parseFrom.eq_def]
    simp [ht, Except.mapError, ParseFault.shift]
  | case12 f t rest _ group groups ht ih =>
    exact (parseFrom_close (t := t.shift n) ht _).trans ih
  | case13 f t rest hconnective group groups ht =>
    rw [parseFrom.eq_def]
    simp [hconnective, ht, Except.mapError, ParseFault.shift, Group.shift]

/-- The bounds on the tokens are met wherever they stand. -/
theorem parse_shift (n : Nat) (limits : Limits) (tokens : List Token) :
    parse limits (tokens.map (shift n)) =
      (parse limits tokens).mapError (ParseFault.shift n) := by
  unfold parse
  rw [List.getLast?_map]
  cases tokens.getLast? with
  | none => rfl
  | some last =>
    simp only [Option.map_some, List.length_map, stop_shift]
    by_cases hcount : limits.maxTokens < tokens.length
    · simp only [if_pos hcount]
      rfl
    · simp only [if_neg hcount]
      exact parseFrom_shift n limits.maxDepth last.stop [] (.wanting none) tokens

/-! ### Texts -/

theorem scanFrom_blanks {blanks : List Char} (h : ∀ c ∈ blanks, isBlank c = true)
    (cs : List Char) (done : List Token) (offset : Nat) :
    scanFrom done offset (blanks ++ cs) = scanFrom done (offset + byteLength blanks) cs := by
  induction blanks generalizing offset with
  | nil => rfl
  | cons c blanks ih =>
    rw [List.forall_mem_cons] at h
    rw [List.cons_append, scanFrom_blank h.1, ih h.2, Nat.add_assoc]
    rfl

/-- Blanks behind a text give no token and no fault. -/
theorem scanFrom_append_blanks {blanks : List Char} (h : ∀ c ∈ blanks, isBlank c = true)
    (cs : List Char) (done : List Token) (offset : Nat) :
    scanFrom done offset (cs ++ blanks) = scanFrom done offset cs := by
  have hquote : '\'' ∉ blanks := fun hmem ↦ absurd (h '\'' hmem) (by decide)
  rw [scanFrom_append (seam_of_blanks h) cs done offset (Or.inl hquote)]
  cases scanFrom done offset cs with
  | error fault => rfl
  | ok ts =>
    have hnone := scanFrom_blanks h [] ts.reverse (offset + byteLength cs)
    rw [List.append_nil, scanFrom_nil, List.reverse_reverse] at hnone
    exact hnone

/-- A text is scanned as it is without the blanks around it, and its tokens stand behind those
before it. -/
theorem scan_eq_trim (s : String) :
    scan s = match scan (Text.trim s) with
      | .ok ts => .ok (ts.map (Token.shift (Text.leadingBytes s)))
      | .error fault => .error (fault.shift (Text.leadingBytes s)) := by
  obtain ⟨trail, hs, htrail⟩ := exists_trail_trimChars s.toList
  have hlead : ∀ c ∈ s.toList.takeWhile isBlank, isBlank c = true :=
    fun _ hc ↦ List.mem_takeWhile_imp hc
  have hscan := scanFrom_blanks hlead (trimChars s.toList ++ trail) [] 0
  rw [← hs, scanFrom_append_blanks htrail, Nat.zero_add] at hscan
  rw [scan, hscan, scanFrom_eq, scan, Text.trim, String.toList_ofList]
  rfl

/-- A text is read as it is without the blanks around it, and its faults lie behind those before
it. -/
theorem read_eq_trim (limits : Limits) (s : String) :
    read limits s =
      (read limits (Text.trim s)).mapError (Fault.shift (Text.leadingBytes s)) := by
  cases hscan : scan (Text.trim s) with
  | error fault =>
    rw [read_of_scan_error hscan, read_of_scan_error (by rw [scan_eq_trim, hscan])]
    rfl
  | ok tokens =>
    have hshifted : scan s = .ok (tokens.map (Token.shift (Text.leadingBytes s))) := by
      rw [scan_eq_trim, hscan]
    rw [read_of_scan hscan, read_of_scan hshifted, parse_shift]
    cases parse limits tokens <;> rfl

/-! ### The places of faults -/

/-- The machine finds no fault but at the place that it has reached. -/
theorem isOverall_of_parseFrom {maxDepth stop : Nat} {groups : List Group} {focus : Focus}
    {tokens : List Token} {fault : ParseFault}
    (h : parseFrom maxDepth stop groups focus tokens = .error fault) :
    fault.cause.isOverall = false := by
  have hcondition {field comparison literal : Token} {fault : ParseFault}
      (h : condition field comparison literal = .error fault) : fault.cause.isOverall = false := by
    unfold condition at h
    split at h
    · cases h; rfl
    · split at h
      · cases h; rfl
      · split at h
        · cases h; rfl
        · split at h <;> cases h
          rfl
  fun_induction parseFrom maxDepth stop groups focus tokens with
  | case1 | case2 | case6 | case8 | case9 | case11 | case13 =>
    cases h
    rfl
  | case3 groups pending t rest ht hroom ih => exact ih h
  | case4 groups pending t ht op literal rest fault' hfault =>
    cases h
    exact hcondition hfault
  | case5 groups pending t ht op literal rest c hc ih => exact ih h
  | case7 => exact absurd h (by simp)
  | case10 groups f t rest ht connective hconnective ih => exact ih h
  | case12 f t rest _ group groups ht ih => exact ih h

/-- A fault of a text as a whole is told of its beginning. -/
theorem offset_of_isOverall {tokens : List Token} {fault : ParseFault}
    (h : parse limits tokens = .error fault) (hoverall : fault.cause.isOverall = true) :
    fault.offset = 0 := by
  unfold parse at h
  split at h
  · cases h
    rfl
  · split at h
    · cases h
      rfl
    · rw [isOverall_of_parseFrom h] at hoverall
      exact absurd hoverall Bool.false_ne_true

/-- A text that is refused has a place at which it is, and blanks before the text move that place,
unless the whole text is at fault. -/
theorem exists_position {s : String} {fault : Fault} (h : read limits s = .error fault) (n : Nat) :
    ∃ p, fault.position? = some p ∧
      ((fault.shift n).position? = some (n + p) ∨
        p = 0 ∧ (fault.shift n).position? = some 0) := by
  rcases exists_cause_of_read_error h with ⟨cause, rfl⟩ | ⟨tokens, cause, hparse, rfl⟩
  · exact ⟨cause.offset, rfl, Or.inl rfl⟩
  · refine ⟨cause.offset, rfl, ?_⟩
    simp only [Fault.shift, Fault.position?, ParseFault.offset_shift]
    by_cases hoverall : cause.cause.isOverall = true
    · have hzero := offset_of_isOverall hparse hoverall
      exact Or.inr ⟨hzero, by rw [if_pos hoverall, hzero]⟩
    · exact Or.inl (by rw [if_neg hoverall])

end Formula

end Criteria
