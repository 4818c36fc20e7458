import Criteria.Proofs.Formula.Read
import Criteria.Proofs.Grammar.Halt
import Criteria.Proofs.Token.Cover
import Mathlib.Data.List.Basic

/-!
The place of a fault. From every state of the machine more tokens lead to a formula, so the tokens
before a fault can always be completed. Unless a limit is at fault, or a condition is cut short,
the token at fault is the first one that no tokens can follow to a formula.
-/

set_option autoImplicit false
set_option relaxedAutoImplicit false

namespace Criteria

namespace Grammar

open Formula

variable {maxDepth stop : Nat} {groups groups' : List Group} {focus focus' : Focus}
variable {pending : Pending} {t op literal : Token}

/-! ### Completing -/

/-- More tokens may follow these, with which the machine ends well. -/
def Completable (maxDepth : Nat) (groups : List Group) (focus : Focus) (tokens : List Token) :
    Prop :=
  ∃ more f, ∀ stop, parseFrom maxDepth stop groups focus (tokens ++ more) = .ok f

theorem Reads.completable {done front : List Token}
    (hdone : Reads maxDepth groups focus done groups' focus')
    (h : Completable maxDepth groups' focus' front) :
    Completable maxDepth groups focus (done ++ front) := by
  obtain ⟨more, f, hmore⟩ := h
  refine ⟨more, f, fun stop ↦ ?_⟩
  rw [List.append_assoc, hdone maxDepth stop _ (Nat.le_refl _), hmore stop]

/-- Closing parentheses complete what is held inside groups. -/
theorem completable_holding (maxDepth : Nat) (groups : List Group) (f : Formula) :
    Completable maxDepth groups (.holding f) [] := by
  induction groups generalizing f with
  | nil => exact ⟨[], f, fun _ ↦ rfl⟩
  | cons group groups ih =>
    obtain ⟨more, g, hmore⟩ := ih (group.pending.close f)
    exact ⟨⟨.rightParen, ")", 0⟩ :: more, g,
      fun stop ↦ (parseFrom_close rfl more).trans (hmore stop)⟩

/-- Tokens that make up a condition can be completed wherever one is wanted. -/
theorem completable_of_condition {front rest : List Token} {c : Condition}
    (hfront : front ++ rest = [t, op, literal]) (hc : condition t op literal = .ok c)
    (maxDepth : Nat) (groups : List Group) (pending : Pending) :
    Completable maxDepth groups (.wanting pending) front := by
  have ht : t.kind ≠ .leftParen := by
    rw [(condition_eq_ok_iff.mp hc).1]
    decide
  obtain ⟨more, f, hmore⟩ :=
    completable_holding maxDepth groups (pending.close (.test c))
  refine ⟨rest ++ more, f, fun stop ↦ ?_⟩
  rw [← List.append_assoc, hfront]
  exact (parseFrom_condition ht hc more).trans (hmore stop)

/-- Every name begins a condition. -/
theorem exists_condition (ht : t.kind = .identifier) :
    ∃ op literal c, condition t op literal = .ok c :=
  ⟨⟨.comparison, "=", 0⟩, ⟨.number, "1", 0⟩, _,
    condition_eq_ok_iff.mpr ⟨ht, rfl, Or.inr rfl, .equal, rfl, rfl⟩⟩

/-- Every state can be completed. -/
theorem completable_nil (maxDepth : Nat) (groups : List Group) (focus : Focus) :
    Completable maxDepth groups focus [] := by
  cases focus with
  | wanting pending =>
    obtain ⟨op, literal, c, hc⟩ := exists_condition (t := ⟨.identifier, "a", 0⟩) rfl
    exact completable_of_condition (List.nil_append _) hc maxDepth groups pending
  | holding f => exact completable_holding maxDepth groups f

/-! ### The token at fault -/

/-- No tokens lead to a formula after these, however deep groups may lie. -/
def Dead (groups : List Group) (focus : Focus) (tokens : List Token) : Prop :=
  ∀ maxDepth stop rest f, parseFrom maxDepth stop groups focus (tokens ++ rest) ≠ .ok f

theorem dead_of_halts {tokens : List Token}
    (h : ∀ maxDepth stop rest, ∃ fault,
      Halts maxDepth stop groups focus (tokens ++ rest) (.error fault)) :
    Dead groups focus tokens := by
  intro maxDepth stop rest f hf
  obtain ⟨fault, hhalts⟩ := h maxDepth stop rest
  rw [hhalts.parseFrom_eq] at hf
  cases hf

theorem Reads.dead {done tokens : List Token}
    (hdone : Reads maxDepth groups focus done groups' focus') (h : Dead groups' focus' tokens) :
    Dead groups focus (done ++ tokens) := by
  intro depth stop rest f hf
  -- A bound that leaves room for the groups of the run allows what the given one allows.
  have hmax := parseFrom_mono (Nat.le_max_right maxDepth depth) hf
  rw [List.append_assoc, hdone _ stop _ (Nat.le_max_left maxDepth depth)] at hmax
  exact h _ stop rest f hmax

theorem dead_of_condition {tokens : List Token} (ht : t.kind ≠ .leftParen)
    (h : ∀ rest op literal tail c, tokens ++ rest = op :: literal :: tail →
      condition t op literal ≠ .ok c) :
    Dead groups (.wanting pending) (t :: tokens) := by
  refine dead_of_halts fun maxDepth stop rest ↦ ?_
  rw [List.cons_append]
  match hnext : tokens ++ rest with
  | [] => exact ⟨_, .short groups pending ht Nat.two_pos⟩
  | [_] => exact ⟨_, .short groups pending ht Nat.one_lt_two⟩
  | op :: literal :: tail =>
    cases hc : condition t op literal with
    | error fault => exact ⟨fault, .condition groups pending tail ht hc⟩
    | ok c => exact absurd hc (h rest op literal tail c hnext)

/-- A fault divides the tokens. Those before it can be completed, and the one at fault, if there is
one, makes an end of that, unless the fault is of a limit or of a condition that is cut short. -/
structure Divides (maxDepth stop : Nat) (groups : List Group) (focus : Focus)
    (done left : List Token) (fault : ParseFault) : Prop where
  offset : fault.offset = left.head?.elim stop Token.offset
  completable : Completable maxDepth groups focus done
  dead : isLimit fault.cause = false → fault.cause ≠ .shortCondition →
    ∀ t ∈ left.head?, Dead groups focus (done ++ [t])

theorem Reads.divides {done front back : List Token} {fault : ParseFault}
    (hdone : Reads maxDepth groups focus done groups' focus')
    (h : Divides maxDepth stop groups' focus' front back fault) :
    Divides maxDepth stop groups focus (done ++ front) back fault where
  offset := h.offset
  completable := hdone.completable h.completable
  dead := fun hlimit hshort t ht ↦ by
    rw [List.append_assoc]
    exact hdone.dead (h.dead hlimit hshort t ht)

/-- A condition is at fault at the first of its tokens that cannot stand there. -/
theorem condition_eq_error {fault : ParseFault} (h : condition t op literal = .error fault) :
    (fault.offset = t.offset ∧ t.kind ≠ .identifier) ∨
      (fault.offset = op.offset ∧ t.kind = .identifier ∧
        ∀ literal c, condition t op literal ≠ .ok c) ∨
      fault.offset = literal.offset ∧ ∃ literal c, condition t op literal = .ok c := by
  by_cases hfield : t.kind = .identifier
  · refine Or.inr ?_
    by_cases hsign : op.kind = .comparison
    · cases hop : Comparison.ofSymbol? op.text with
      | none =>
        simp only [condition, hfield, hsign, hop, ne_eq, not_true_eq_false, ↓reduceIte] at h
        cases h
        refine Or.inl ⟨rfl, hfield, fun literal c hc ↦ ?_⟩
        obtain ⟨-, -, -, sign, hsome, -⟩ := condition_eq_ok_iff.mp hc
        rw [hop] at hsome
        cases hsome
      | some sign =>
        refine Or.inr ⟨?_, ⟨.number, "1", 0⟩, _, condition_eq_ok_iff.mpr
          ⟨hfield, hsign, Or.inr rfl, sign, hop, rfl⟩⟩
        simp only [condition, hfield, hsign, hop, ne_eq, not_true_eq_false, ↓reduceIte] at h
        split at h
        · cases h
        · cases h
          rfl
    · simp only [condition, hfield, ne_eq, not_true_eq_false, ↓reduceIte, hsign,
        not_false_eq_true] at h
      cases h
      exact Or.inl ⟨rfl, hfield, fun literal c hc ↦ hsign (condition_eq_ok_iff.mp hc).2.1⟩
  · simp only [condition, ne_eq, hfield, not_false_eq_true, ↓reduceIte] at h
    cases h
    exact Or.inl ⟨rfl, hfield⟩

theorem divides_of_condition (rest : List Token) {fault : ParseFault} (ht : t.kind ≠ .leftParen)
    (h : condition t op literal = .error fault) :
    ∃ front back, t :: op :: literal :: rest = front ++ back ∧
      Divides maxDepth stop groups (.wanting pending) front back fault := by
  rcases condition_eq_error h with ⟨hoffset, hfield⟩ | ⟨hoffset, hfield, hnone⟩ |
    ⟨hoffset, other, c, hc⟩
  · refine ⟨[], _, rfl, hoffset, completable_nil maxDepth groups _, ?_⟩
    rintro - - _ ⟨⟩
    exact dead_of_condition ht fun _ _ _ _ _ _ hc ↦ hfield (condition_eq_ok_iff.mp hc).1
  · obtain ⟨sign, number, c, hc⟩ := exists_condition hfield
    refine ⟨[t], op :: literal :: rest, rfl, hoffset,
      completable_of_condition rfl hc maxDepth groups pending, ?_⟩
    rintro - - _ ⟨⟩
    refine dead_of_condition ht fun rest op' literal' tail c hnext ↦ ?_
    obtain ⟨rfl, -⟩ := List.cons.inj hnext
    exact hnone literal' c
  · refine ⟨[t, op], literal :: rest, rfl, hoffset,
      completable_of_condition rfl hc maxDepth groups pending, ?_⟩
    rintro - - _ ⟨⟩
    refine dead_of_condition ht fun rest op' literal' tail c hnext hc ↦ ?_
    obtain ⟨rfl, rfl, -⟩ : op = op' ∧ literal = literal' ∧ rest = tail := by simpa using hnext
    rw [h] at hc
    cases hc

/-- The token at hand is at fault by itself, whatever follows it. -/
theorem divides_here {rest : List Token} {fault : ParseFault} (hoffset : fault.offset = t.offset)
    (hdead : isLimit fault.cause = false → fault.cause ≠ .shortCondition →
      ∀ maxDepth stop more, ∃ fault, Halts maxDepth stop groups focus (t :: more) (.error fault)) :
    Divides maxDepth stop groups focus [] (t :: rest) fault where
  offset := hoffset
  completable := completable_nil maxDepth groups focus
  dead := by
    rintro hlimit hshort _ ⟨⟩
    exact dead_of_halts (hdead hlimit hshort)

/-- Tokens are missing at the end. -/
theorem divides_end {fault : ParseFault} (hoffset : fault.offset = stop) :
    Divides maxDepth stop groups focus [] [] fault where
  offset := hoffset
  completable := completable_nil maxDepth groups focus
  dead := by simp

/-- Where the machine halts with a fault, the fault divides the tokens that are still to come. -/
theorem Halts.divides {left : List Token} {fault : ParseFault}
    (h : Halts maxDepth stop groups focus left (.error fault)) :
    ∃ front back, left = front ++ back ∧
      Divides maxDepth stop groups focus front back fault := by
  cases h with
  | missing | unclosed => exact ⟨[], [], rfl, divides_end rfl⟩
  | tooDeep => exact ⟨[], _, rfl, divides_here rfl fun hlimit ↦ nomatch hlimit⟩
  | short => exact ⟨[], _, rfl, divides_here rfl fun _ hshort ↦ absurd rfl hshort⟩
  | condition groups pending rest ht hc => exact divides_of_condition rest ht hc
  | connective groups f rest ht hconnective =>
    exact ⟨[], _, rfl,
      divides_here rfl fun _ _ _ _ more ↦ ⟨_, .connective groups f more ht hconnective⟩⟩
  | trailing f rest ht =>
    exact ⟨[], _, rfl, divides_here rfl fun _ _ _ _ more ↦ ⟨_, .trailing f more ht⟩⟩
  | unclosedAt group groups f rest hconnective ht =>
    exact ⟨[], _, rfl,
      divides_here rfl fun _ _ _ _ more ↦ ⟨_, .unclosedAt group groups f more hconnective ht⟩⟩

theorem exists_divides {tokens : List Token} {fault : ParseFault}
    (h : parseFrom maxDepth stop groups focus tokens = .error fault) :
    ∃ done left, tokens = done ++ left ∧
      Divides maxDepth stop groups focus done left fault := by
  obtain ⟨done, left, groups', focus', rfl, hdone, hhalts⟩ :=
    ends_parseFrom maxDepth stop groups focus tokens
  rw [h] at hhalts
  obtain ⟨front, back, rfl, hfault⟩ := hhalts.divides
  exact ⟨done ++ front, back, (List.append_assoc _ _ _).symm, hdone.divides hfault⟩

/-! ### Tokens -/

theorem exists_parse_of_completable {tokens : List Token}
    (h : Completable maxDepth [] (.wanting none) tokens) :
    ∃ more f, ∀ maxTokens, (tokens ++ more).length ≤ maxTokens →
      parse ⟨maxTokens, maxDepth⟩ (tokens ++ more) = .ok f := by
  obtain ⟨more, f, hmore⟩ := h
  have hne : tokens ++ more ≠ [] := by
    intro hnil
    rw [hnil] at hmore
    cases hmore 0
  refine ⟨more, f, fun maxTokens hcount ↦ ?_⟩
  rw [parse_eq_parseFrom hne hcount, hmore]

theorem Dead.parse_ne {tokens : List Token} (h : Dead [] (.wanting none) tokens)
    (limits : Limits) (more : List Token) (f : Formula) :
    parse limits (tokens ++ more) ≠ .ok f := by
  intro hparse
  have hne : tokens ++ more ≠ [] := by
    intro hnil
    rw [hnil] at hparse
    cases hparse
  rw [parse_eq_parseFrom hne ((parse_eq_ok_iff limits _ f).mp hparse).1] at hparse
  exact h _ _ more f hparse

end Grammar

namespace Formula

open Grammar Token

/-- The tokens that end at a place or before it. -/
def endingBy (place : Nat) (tokens : List Token) : List Token :=
  tokens.filter fun t ↦ t.stop ≤ place

/-- Each token takes some bytes, and none begins before the one in front of it ends. -/
structure InOrder (tokens : List Token) : Prop where
  offset_lt_stop : ∀ t ∈ tokens, t.offset < t.stop
  pairwise : tokens.Pairwise fun t u ↦ t.stop ≤ u.offset

theorem inOrder_of_scan {s : String} {ts : List Token} (h : scan s = .ok ts) : InOrder ts := by
  constructor
  · intro t ht
    have hwhole : t.lexeme.Whole :=
      whole_of_mem_lexemes? (lexemes?_eq_some_iff.mpr ⟨ts, h, rfl⟩) _ (List.mem_map_of_mem ht)
    have hne : t.text ≠ "" := by
      intro hempty
      refine (lexeme?_append hwhole).2 ?_
      rw [lexeme, hempty]
      rfl
    have hpos : t.text.utf8ByteSize ≠ 0 := by simpa using hne
    rw [stop]
    omega
  · obtain ⟨us, rfl, hcovers⟩ := covers_of_scanFrom h
    exact hcovers.pairwise

namespace InOrder

variable {tokens front after : List Token} {t : Token}

theorem endingBy_zero (h : InOrder tokens) : endingBy 0 tokens = [] := by
  rw [endingBy, List.filter_eq_nil_iff]
  intro u hu
  have hu' := h.offset_lt_stop u hu
  simp only [decide_eq_true_eq]
  omega

/-- The tokens that end by the place at which one of them begins are those in front of it. -/
theorem endingBy_offset (h : InOrder (front ++ t :: after)) :
    endingBy t.offset (front ++ t :: after) = front := by
  obtain ⟨-, hafter, hfront⟩ := List.pairwise_append.mp h.pairwise
  have hkept : ∀ u ∈ front, u.stop ≤ t.offset := fun u hu ↦ hfront u hu t List.mem_cons_self
  have hleft : ∀ u ∈ t :: after, t.offset < u.stop := by
    have ht := h.offset_lt_stop t (by simp)
    refine List.forall_mem_cons.mpr ⟨ht, fun u hu ↦ ?_⟩
    have hnext := (List.pairwise_cons.mp hafter).1 u hu
    have hu' := h.offset_lt_stop u (by simp [hu])
    omega
  rw [endingBy, List.filter_append, List.filter_eq_self.mpr (by simpa using hkept),
    List.filter_eq_nil_iff.mpr (by simpa using hleft), List.append_nil]

/-- All tokens end by the place at which the last one does. -/
theorem endingBy_stop (h : InOrder (front ++ [t])) :
    endingBy t.stop (front ++ [t]) = front ++ [t] := by
  obtain ⟨-, -, hfront⟩ := List.pairwise_append.mp h.pairwise
  have ht := h.offset_lt_stop t (by simp)
  have hkept : ∀ u ∈ front ++ [t], u.stop ≤ t.stop := by
    refine List.forall_mem_append.mpr ⟨fun u hu ↦ ?_, by simp⟩
    have hnext := hfront u hu t List.mem_cons_self
    omega
  rw [endingBy, List.filter_eq_self]
  simpa using hkept

end InOrder

/-- The place of a fault divides the tokens of a text, whether the machine finds the fault or the
tokens are too few or too many. -/
theorem exists_left_of_parse {limits : Limits} {tokens : List Token} {fault : ParseFault}
    (horder : InOrder tokens) (h : parse limits tokens = .error fault) :
    ∃ left, tokens = endingBy fault.offset tokens ++ left ∧
      (fault.offset = 0 ∨ ∃ last ∈ tokens.getLast?,
        fault.offset = left.head?.elim last.stop Token.offset) ∧
      Completable limits.maxDepth [] (.wanting none) (endingBy fault.offset tokens) ∧
      (isLimit fault.cause = false → fault.cause ≠ .shortCondition →
        ∀ t ∈ left.head?, Dead [] (.wanting none) (endingBy fault.offset tokens ++ [t])) := by
  have hnil := completable_nil limits.maxDepth [] (.wanting none)
  rcases List.eq_nil_or_concat' tokens with rfl | ⟨front, last, rfl⟩
  · cases h
    exact ⟨[], rfl, Or.inl rfl, hnil, by simp⟩
  have hne : front ++ [last] ≠ [] := by simp
  by_cases hcount : (front ++ [last]).length ≤ limits.maxTokens
  · rw [parse_eq_parseFrom hne hcount, List.getLast_append] at h
    obtain ⟨done, left, htokens, hdivides⟩ := exists_divides h
    have hoffset := hdivides.offset
    have hdone : endingBy fault.offset (front ++ [last]) = done := by
      cases left with
      | nil =>
        rw [List.append_nil] at htokens
        rw [← htokens]
        exact hoffset ▸ horder.endingBy_stop
      | cons t after =>
        rw [htokens] at horder ⊢
        exact hoffset ▸ horder.endingBy_offset
    rw [hdone]
    exact ⟨left, htokens, Or.inr ⟨last, by simp, hoffset⟩, hdivides.completable, hdivides.dead⟩
  · rw [parse_of_tooMany hne (Nat.not_le.mp hcount)] at h
    cases h
    rw [horder.endingBy_zero]
    exact ⟨_, rfl, Or.inl rfl, hnil, fun hlimit ↦ nomatch hlimit⟩

/-- A fault is found at the first token that cannot stand where it does. It is told of the beginning
of the text, of the beginning of a token or of the end of the last one, and the tokens that end by
then can be completed under the same bound on the depth. Unless a limit is at fault, or a condition
is cut short, no tokens that begin with those up to the one at fault are read under any limits. -/
theorem fault_at_first_offending_token (limits : Limits) (s : String) (ts : List Token)
    (fault : ParseFault) (hscan : scan s = .ok ts)
    (hread : read limits s = .error (.grammatical fault)) :
    (fault.offset = 0 ∨ (∃ t ∈ ts, fault.offset = t.offset) ∨
      ∃ t ∈ ts.getLast?, fault.offset = t.stop) ∧
    (∃ more f, ∀ maxTokens, (endingBy fault.offset ts ++ more).length ≤ maxTokens →
      parse ⟨maxTokens, limits.maxDepth⟩ (endingBy fault.offset ts ++ more) = .ok f) ∧
    (isLimit fault.cause = false → fault.cause ≠ .shortCondition →
      ∀ before t after, ts = before ++ t :: after → t.offset = fault.offset →
        ∀ (limits' : Limits) (more : List Token) (f : Formula),
          parse limits' (before ++ t :: more) ≠ .ok f) := by
  have hparse : parse limits ts = .error fault := by
    rw [read_of_scan hscan] at hread
    cases hparse : parse limits ts with
    | ok f =>
      rw [hparse] at hread
      cases hread
    | error other =>
      rw [hparse] at hread
      cases hread
      rfl
  have horder := inOrder_of_scan hscan
  obtain ⟨left, hts, hplace, hcompletable, hdead⟩ := exists_left_of_parse horder hparse
  refine ⟨hplace.imp_right ?_, exists_parse_of_completable hcompletable, ?_⟩
  · rintro ⟨last, hlast, hoffset⟩
    cases left with
    | nil => exact Or.inr ⟨last, hlast, hoffset⟩
    | cons t after => exact Or.inl ⟨t, by rw [hts]; simp, hoffset⟩
  · rintro hlimit hshort before t after rfl hoffset limits' more f
    have hbefore : endingBy fault.offset (before ++ t :: after) = before :=
      hoffset ▸ horder.endingBy_offset
    rw [hbefore] at hts hdead
    obtain rfl := List.append_cancel_left hts
    have hne := (hdead hlimit hshort t rfl).parse_ne limits' more f
    rwa [List.append_assoc] at hne

/-- Two groups are open, and a condition is complete. -/
def inGroups : List Token :=
  [⟨.leftParen, "(", 0⟩, ⟨.identifier, "a", 1⟩, ⟨.comparison, "=", 3⟩, ⟨.number, "1", 5⟩,
    ⟨.connective, "AND", 7⟩, ⟨.leftParen, "(", 11⟩, ⟨.identifier, "b", 12⟩,
    ⟨.comparison, ">", 14⟩, ⟨.text, "'x'", 16⟩]

/-- No name may follow a condition, though the groups around it can be closed. -/
theorem fault_at_first_offending_token_of_groups :
    scan "(a = 1 AND (b > 'x' c" = .ok (inGroups ++ [⟨.identifier, "c", 20⟩]) ∧
      read ⟨10, 2⟩ "(a = 1 AND (b > 'x' c" =
        .error (.grammatical ⟨20, .unclosedGroupAt 11 "c"⟩) ∧
      (∃ more f, parse ⟨(inGroups ++ more).length, 2⟩ (inGroups ++ more) = .ok f) ∧
      ∀ (limits : Limits) (more : List Token) (f : Formula),
        parse limits (inGroups ++ ⟨.identifier, "c", 20⟩ :: more) ≠ .ok f := by
  have hscan : scan "(a = 1 AND (b > 'x' c" = .ok (inGroups ++ [⟨.identifier, "c", 20⟩]) := by
    decide +kernel
  have hread : read ⟨10, 2⟩ "(a = 1 AND (b > 'x' c" =
      .error (.grammatical ⟨20, .unclosedGroupAt 11 "c"⟩) := by
    rw [read_of_scan hscan]
    rfl
  obtain ⟨-, ⟨more, f, hmore⟩, hnone⟩ :=
    fault_at_first_offending_token ⟨10, 2⟩ _ _ _ hscan hread
  exact ⟨hscan, hread, ⟨more, f, hmore _ (Nat.le_refl _)⟩,
    hnone rfl (by decide) inGroups _ [] rfl rfl⟩

end Formula

end Criteria
