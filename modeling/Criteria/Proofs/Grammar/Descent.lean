import Criteria.Proofs.Grammar.Halt

/-!
Reading by recursive descent. An expression asks for its conditions, a condition that is a group
asks for the expression inside, and all of them move one cursor over the tokens and one count of the
open groups. The calls that wait are written out here, so that a step is one look at the tokens and
what the counters do can be followed from step to step. A step keeps the counters right, and it
leaves the answer of the stack machine as it is.
-/

set_option autoImplicit false
set_option relaxedAutoImplicit false

namespace Criteria.Grammar

open Formula

/-! ### The descent -/

/-- The calls that wait for a phrase, the innermost first. An expression waits for its next
condition with what stands on its left, a group for the expression inside with the byte of its
parenthesis. -/
inductive Callers : Phrase → Type where
  | none : Callers .expression
  | group (opener : Nat) (outer : Callers .condition) : Callers .expression
  | expression (pending : Pending) (outer : Callers .expression) : Callers .condition

/-- What stands on the left of the condition that is waited for. -/
def Callers.pending : Callers .condition → Pending
  | .expression pending _ => pending

/-- The groups among the calls. -/
def Callers.groups {p : Phrase} : Callers p → List Group
  | .none => []
  | .group opener outer => ⟨opener, outer.pending⟩ :: outer.groups
  | .expression _ outer => outer.groups

/-- How many of the calls are expressions. -/
def Callers.expressions {p : Phrase} : Callers p → Nat
  | .none => 0
  | .group _ outer => outer.expressions
  | .expression _ outer => outer.expressions + 1

/-- A call inside a condition stands in one expression more than there are groups. -/
theorem Callers.expressions_eq {p : Phrase} (callers : Callers p) :
    callers.expressions = callers.groups.length + if p = .condition then 1 else 0 := by
  induction callers with
  | none => rfl
  | group opener outer ih => simpa [expressions, groups] using ih
  | expression pending outer ih => simpa [expressions, groups] using ih

/-- What is next: to read a phrase, to enter a group whose parenthesis has been read, or to give a
phrase that has been read to the call that waits for it. -/
inductive Control where
  | read (p : Phrase) (callers : Callers p)
  | enter (opener : Nat) (callers : Callers .condition)
  | give (p : Phrase) (callers : Callers p) (f : Formula)

/-- The groups that have been entered and not yet closed. -/
def Control.groups : Control → List Group
  | .read _ callers => callers.groups
  | .enter opener callers => ⟨opener, callers.pending⟩ :: callers.groups
  | .give _ callers _ => callers.groups

/-- The expressions that are being read, one inside another. -/
def Control.expressions : Control → Nat
  | .read _ callers => callers.expressions
  | .enter _ callers => callers.expressions
  | .give _ callers _ => callers.expressions

def Control.isEntering : Control → Bool
  | .enter .. => true
  | _ => false

/-- The cursor, the count of the open groups, and what is next. -/
structure Descent where
  pos : Nat
  depth : Nat
  control : Control

namespace Descent

/-- What a step comes to. It breaks where it would cut the tokens behind their end, or count below
zero. -/
inductive Outcome where
  | next (s : Descent)
  | answer (result : Except ParseFault Formula)
  | broken

/-- The byte after the last token. -/
def endOffset (tokens : List Token) : Nat :=
  (tokens.getLast?.map Token.stop).getD 0

/-- Reads a field, a comparison and a literal off the slice at the cursor. -/
def stepComparison (tokens : List Token) (pos depth : Nat) (callers : Callers .condition) :
    Outcome :=
  if tokens.length < pos then .broken
  else
    match tokens.drop pos with
    | field :: sign :: literal :: _ =>
      match condition field sign literal with
      | .error fault => .answer (.error fault)
      | .ok c => .next ⟨pos + 3, depth, .give .condition callers (.test c)⟩
    | remaining =>
      .answer (.error
        ⟨(remaining.head?.map Token.offset).getD (endOffset tokens), .shortCondition⟩)

/-- One step of the descent. -/
def step (maxDepth : Nat) (tokens : List Token) : Descent → Outcome
  | ⟨pos, depth, .read .expression callers⟩ =>
    .next ⟨pos, depth, .read .condition (.expression none callers)⟩
  | ⟨pos, depth, .read .condition callers⟩ =>
    match tokens[pos]? with
    | none => .answer (.error ⟨endOffset tokens, .missingCondition⟩)
    | some t =>
      if t.kind = .leftParen then .next ⟨pos + 1, depth + 1, .enter t.offset callers⟩
      else stepComparison tokens pos depth callers
  | ⟨pos, depth, .enter opener callers⟩ =>
    if maxDepth < depth then .answer (.error ⟨opener, .tooDeep maxDepth⟩)
    else .next ⟨pos, depth, .read .expression (.group opener callers)⟩
  | ⟨pos, depth, .give .condition (.expression pending outer) f⟩ =>
    match tokens[pos]? with
    | none => .next ⟨pos, depth, .give .expression outer (pending.close f)⟩
    | some t =>
      if t.kind = .connective then
        match Connective.ofSymbol? t.text with
        | none => .answer (.error ⟨t.offset, .unknownConnective t.text⟩)
        | some connective =>
          .next ⟨pos + 1, depth,
            .read .condition (.expression (some (pending.close f, connective)) outer)⟩
      else .next ⟨pos, depth, .give .expression outer (pending.close f)⟩
  | ⟨pos, depth, .give .expression (.group opener outer) f⟩ =>
    match tokens[pos]? with
    | none => .answer (.error ⟨endOffset tokens, .unclosedGroup opener⟩)
    | some t =>
      if t.kind = .rightParen then
        match depth with
        | 0 => .broken
        | depth + 1 => .next ⟨pos + 1, depth, .give .condition outer f⟩
      else .answer (.error ⟨t.offset, .unclosedGroupAt opener t.text⟩)
  | ⟨pos, _, .give .expression .none f⟩ =>
    match tokens[pos]? with
    | none => .answer (.ok f)
    | some t => .answer (.error ⟨t.offset, .trailing t.text⟩)

/-- As many steps as told, unless the descent ends before. -/
def run (maxDepth : Nat) (tokens : List Token) : Nat → Descent → Outcome
  | 0, s => .next s
  | n + 1, s =>
    match step maxDepth tokens s with
    | .next s' => run maxDepth tokens n s'
    | outcome => outcome

/-- Where a descent begins. -/
def start : Descent :=
  ⟨0, 0, .read .expression .none⟩

/-- More steps than any descent over the tokens takes. -/
def enoughSteps (tokens : List Token) : Nat :=
  3 * tokens.length + 2

/-- What the descent over the tokens comes to, within the limits. -/
def outcome (limits : Limits) (tokens : List Token) : Outcome :=
  if tokens.isEmpty then .answer (.error ⟨0, .emptyRule⟩)
  else if limits.maxTokens < tokens.length then
    .answer (.error ⟨0, .tooManyTokens tokens.length limits.maxTokens⟩)
  else run limits.maxDepth tokens (enoughSteps tokens) start

variable {maxDepth : Nat} {tokens : List Token} {s s' : Descent}

/-! ### What a step can do -/

/-- The steps after which the descent goes on. -/
inductive Moves (maxDepth : Nat) (tokens : List Token) : Descent → Descent → Prop where
  | expression (pos depth : Nat) (callers : Callers .expression) :
    Moves maxDepth tokens ⟨pos, depth, .read .expression callers⟩
      ⟨pos, depth, .read .condition (.expression none callers)⟩
  | opener {t : Token} {pos : Nat} (depth : Nat) (callers : Callers .condition)
    (hread : tokens.drop pos = t :: tokens.drop (pos + 1)) (ht : t.kind = .leftParen) :
    Moves maxDepth tokens ⟨pos, depth, .read .condition callers⟩
      ⟨pos + 1, depth + 1, .enter t.offset callers⟩
  | body {depth : Nat} (pos opener : Nat) (callers : Callers .condition)
    (hroom : depth ≤ maxDepth) :
    Moves maxDepth tokens ⟨pos, depth, .enter opener callers⟩
      ⟨pos, depth, .read .expression (.group opener callers)⟩
  | comparison {t op literal : Token} {c : Condition} {pos : Nat} (depth : Nat)
    (callers : Callers .condition)
    (hread : tokens.drop pos = t :: op :: literal :: tokens.drop (pos + 3))
    (ht : t.kind ≠ .leftParen) (hc : condition t op literal = .ok c) :
    Moves maxDepth tokens ⟨pos, depth, .read .condition callers⟩
      ⟨pos + 3, depth, .give .condition callers (.test c)⟩
  | connective {t : Token} {connective : Connective} {pos : Nat} (depth : Nat)
    (pending : Pending) (outer : Callers .expression) (f : Formula)
    (hread : tokens.drop pos = t :: tokens.drop (pos + 1)) (ht : t.kind = .connective)
    (hconnective : Connective.ofSymbol? t.text = some connective) :
    Moves maxDepth tokens ⟨pos, depth, .give .condition (.expression pending outer) f⟩
      ⟨pos + 1, depth, .read .condition (.expression (some (pending.close f, connective)) outer)⟩
  | ended {pos : Nat} (depth : Nat) (pending : Pending) (outer : Callers .expression)
    (f : Formula) (hend : ∀ t, tokens[pos]? = some t → t.kind ≠ .connective) :
    Moves maxDepth tokens ⟨pos, depth, .give .condition (.expression pending outer) f⟩
      ⟨pos, depth, .give .expression outer (pending.close f)⟩
  | closer {t : Token} {pos : Nat} (depth opener : Nat) (outer : Callers .condition)
    (f : Formula) (hread : tokens.drop pos = t :: tokens.drop (pos + 1))
    (ht : t.kind = .rightParen) :
    Moves maxDepth tokens ⟨pos, depth + 1, .give .expression (.group opener outer) f⟩
      ⟨pos + 1, depth, .give .condition outer f⟩

theorem drop_eq_cons {t : Token} {pos : Nat} (ht : tokens[pos]? = some t) :
    tokens.drop pos = t :: tokens.drop (pos + 1) := by
  obtain ⟨hlt, rfl⟩ := List.getElem?_eq_some_iff.mp ht
  exact List.drop_eq_getElem_cons hlt

theorem drop_eq_nil {pos : Nat} (h : tokens[pos]? = none) : tokens.drop pos = [] :=
  List.drop_eq_nil_of_le (List.getElem?_eq_none_iff.mp h)

/-! ### What holds at every step -/

/-- How many of the tokens are of a kind. -/
def count (kind : Token.Kind) (tokens : List Token) : Nat :=
  tokens.countP fun t ↦ t.kind = kind

@[simp] theorem count_singleton (kind : Token.Kind) (t : Token) :
    count kind [t] = if t.kind = kind then 1 else 0 := by
  simp [count, List.countP_cons]

/-- The bookkeeping is right. The cursor is within the tokens; the count is that of the groups that
have been entered and not yet closed, and of the parentheses that have been opened and not closed
before the cursor; it keeps the bound, except while a group is entered and is still to be checked;
expressions lie one inside another no further than one beyond the bound; and an expression ends
before no connective. -/
structure Sound (maxDepth : Nat) (tokens : List Token) (s : Descent) : Prop where
  pos_le : s.pos ≤ tokens.length
  depth_eq : s.depth = s.control.groups.length
  balance : s.depth + count .rightParen (tokens.take s.pos) =
    count .leftParen (tokens.take s.pos)
  depth_le : s.control.isEntering = false → s.depth ≤ maxDepth
  expressions_le : s.control.expressions ≤ maxDepth + 1
  ended : ∀ callers f t, s.control = .give .expression callers f → tokens[s.pos]? = some t →
    t.kind ≠ .connective

theorem sound_start (maxDepth : Nat) (tokens : List Token) : Sound maxDepth tokens .start where
  pos_le := Nat.zero_le _
  depth_eq := rfl
  balance := rfl
  depth_le _ := Nat.zero_le _
  expressions_le := Nat.zero_le _
  ended callers f t h := by cases h

theorem count_take {pos : Nat} (kind : Token.Kind) (front : List Token)
    (hread : tokens.drop pos = front ++ tokens.drop (pos + front.length)) :
    count kind (tokens.take (pos + front.length)) =
      count kind (tokens.take pos) + count kind front := by
  rw [List.take_add, hread, List.take_left, count, List.countP_append]
  rfl

theorem add_length_le {pos : Nat} (front : List Token) (hpos : pos ≤ tokens.length)
    (hread : tokens.drop pos = front ++ tokens.drop (pos + front.length)) :
    pos + front.length ≤ tokens.length := by
  have hlength := congrArg List.length hread
  simp only [List.length_append, List.length_drop] at hlength
  omega

/-- The tokens of a comparison are no parentheses. -/
theorem count_comparison {t op literal : Token} {c : Condition}
    (hc : condition t op literal = .ok c) :
    count .leftParen [t, op, literal] = 0 ∧ count .rightParen [t, op, literal] = 0 := by
  obtain ⟨hfield, hsign, hliteral, -⟩ := condition_eq_ok_iff.mp hc
  rcases hliteral with hliteral | hliteral <;> simp [count, hfield, hsign, hliteral]

/-- What balances before the cursor balances after the tokens that are read next, if the count of
the groups follows their parentheses. -/
theorem balance_take {pos depth depth' : Nat} (front : List Token)
    (hread : tokens.drop pos = front ++ tokens.drop (pos + front.length))
    (hbalance : depth + count .rightParen (tokens.take pos) = count .leftParen (tokens.take pos))
    (hdepth : depth' + count .rightParen front = depth + count .leftParen front) :
    depth' + count .rightParen (tokens.take (pos + front.length)) =
      count .leftParen (tokens.take (pos + front.length)) := by
  rw [count_take _ front hread, count_take _ front hread]
  omega

/-- Each step keeps the bookkeeping right. -/
theorem Sound.moves (h : Sound maxDepth tokens s) (hmoves : Moves maxDepth tokens s s') :
    Sound maxDepth tokens s' := by
  obtain ⟨hpos, hdepth, hbalance, hbound, hexpressions, -⟩ := h
  cases hmoves with
  | expression pos depth callers =>
    -- Only here a call is added to the expressions, and it stands in as many as there are groups.
    have hle : depth ≤ maxDepth := hbound rfl
    have hgroups : depth = callers.groups.length := hdepth
    have hcallers : callers.expressions = callers.groups.length := callers.expressions_eq
    have hone : callers.expressions + 1 ≤ maxDepth + 1 := by omega
    exact ⟨hpos, hdepth, hbalance, hbound, hone, by simp⟩
  | @opener t pos depth callers hread ht =>
    exact ⟨add_length_le [t] hpos hread, congrArg (· + 1) hdepth,
      balance_take [t] hread hbalance (by simp [ht]), by simp [Control.isEntering], hexpressions,
      by simp⟩
  | body pos opener callers hroom =>
    exact ⟨hpos, hdepth, hbalance, fun _ ↦ hroom, hexpressions, by simp⟩
  | @comparison t op literal c pos depth callers hread ht hc =>
    obtain ⟨hleft, hright⟩ := count_comparison hc
    exact ⟨add_length_le [t, op, literal] hpos hread, hdepth,
      balance_take [t, op, literal] hread hbalance (by rw [hleft, hright]), hbound, hexpressions,
      by simp⟩
  | @connective t connective pos depth pending outer f hread ht hconnective =>
    exact ⟨add_length_le [t] hpos hread, hdepth,
      balance_take [t] hread hbalance (by simp [ht]), hbound, hexpressions, by simp⟩
  | @ended pos depth pending outer f hend =>
    exact ⟨hpos, hdepth, hbalance, hbound, Nat.le_of_succ_le hexpressions,
      fun _ _ t _ ht ↦ hend t ht⟩
  | @closer t pos depth opener outer f hread ht =>
    have hle : depth + 1 ≤ maxDepth := hbound rfl
    exact ⟨add_length_le [t] hpos hread, Nat.succ.inj hdepth,
      balance_take [t] hread hbalance (by simp [ht]), fun _ ↦ Nat.le_of_succ_le hle, hexpressions,
      by simp⟩

/-! ### The answer of the stack machine -/

/-- The answer of the stack machine from where the descent stands. -/
def expected (maxDepth : Nat) (tokens : List Token) (s : Descent) :
    Except ParseFault Formula :=
  let machine := fun focus ↦
    parseFrom maxDepth (endOffset tokens) s.control.groups focus (tokens.drop s.pos)
  match s.control with
  | .read .expression _ => machine (.wanting none)
  | .read .condition callers => machine (.wanting callers.pending)
  | .enter opener _ =>
    if maxDepth < s.depth then .error ⟨opener, .tooDeep maxDepth⟩ else machine (.wanting none)
  | .give .condition callers f => machine (.holding (callers.pending.close f))
  | .give .expression _ f => machine (.holding f)

/-- No step changes the answer that is to be expected. -/
theorem Sound.expected_moves (h : Sound maxDepth tokens s) (hmoves : Moves maxDepth tokens s s') :
    s'.expected maxDepth tokens = s.expected maxDepth tokens := by
  cases hmoves with
  | expression => rfl
  | @opener t pos depth callers hread ht =>
    have hdepth : depth = callers.groups.length := h.depth_eq
    simp only [expected, Control.groups, hread]
    by_cases hfull : maxDepth < depth + 1
    · rw [if_pos hfull, parseFrom_open_tooDeep ht (by omega)]
    · rw [if_neg hfull, parseFrom_open ht (by omega)]
  | body pos opener callers hroom =>
    simp only [expected, if_neg (Nat.not_lt.mpr hroom)]
    rfl
  | @comparison t op literal c pos depth callers hread ht hc =>
    simp only [expected, hread]
    exact (parseFrom_condition ht hc _).symm
  | @connective t connective pos depth pending outer f hread ht hconnective =>
    simp only [expected, hread]
    exact (parseFrom_connective ht hconnective _).symm
  | ended => rfl
  | @closer t pos depth opener outer f hread ht =>
    simp only [expected, Control.groups, Callers.groups, hread, parseFrom_close ht]

/-- The next step goes on as `Moves` tells, or it gives the answer that is to be expected. -/
def Proceeds (maxDepth : Nat) (tokens : List Token) (s : Descent) : Prop :=
  (∃ s', step maxDepth tokens s = .next s' ∧ Moves maxDepth tokens s s') ∨
    step maxDepth tokens s = .answer (s.expected maxDepth tokens)

theorem answered {groups : List Group} {focus : Focus} {left : List Token} {stop : Nat}
    {answer : Except ParseFault Formula} (h : Halts maxDepth stop groups focus left answer) :
    Outcome.answer answer = .answer (parseFrom maxDepth stop groups focus left) :=
  congrArg Outcome.answer h.parseFrom_eq.symm

theorem proceeds_comparison {t : Token} {pos : Nat} (depth : Nat) (callers : Callers .condition)
    (ht : tokens[pos]? = some t) (hkind : t.kind ≠ .leftParen) :
    Proceeds maxDepth tokens ⟨pos, depth, .read .condition callers⟩ := by
  have hslice : ¬tokens.length < pos :=
    Nat.not_lt.mpr (Nat.le_of_lt (List.getElem?_eq_some_iff.mp ht).1)
  have hread := drop_eq_cons ht
  have hdrop : tokens.drop (pos + 3) = (tokens.drop (pos + 1)).drop 2 := by rw [List.drop_drop]
  simp only [Proceeds, step, ht, if_neg hkind, stepComparison, if_neg hslice, expected]
  rcases hrest : tokens.drop (pos + 1) with _ | ⟨op, _ | ⟨literal, rest⟩⟩
  · rw [hread, hrest]
    exact Or.inr (answered (.short _ _ hkind (by simp)))
  · rw [hread, hrest]
    exact Or.inr (answered (.short _ _ hkind (by simp)))
  · rw [hrest] at hread hdrop
    rw [hread]
    cases hc : condition t op literal with
    | error fault =>
      simp only [hc]
      exact Or.inr (answered (.condition _ _ rest hkind hc))
    | ok c =>
      simp only [hc]
      exact Or.inl ⟨_, rfl, .comparison depth callers (by rw [hdrop, hread]; rfl) hkind hc⟩

theorem proceeds_condition (pos depth : Nat) (callers : Callers .condition) :
    Proceeds maxDepth tokens ⟨pos, depth, .read .condition callers⟩ := by
  cases ht : tokens[pos]? with
  | none =>
    simp only [Proceeds, step, ht, expected, drop_eq_nil ht]
    exact Or.inr (answered (.missing _ _))
  | some t =>
    by_cases hkind : t.kind = .leftParen
    · simp only [Proceeds, step, ht, if_pos hkind]
      exact Or.inl ⟨_, rfl, .opener depth callers (drop_eq_cons ht) hkind⟩
    · exact proceeds_comparison depth callers ht hkind

theorem proceeds_enter (pos depth opener : Nat) (callers : Callers .condition) :
    Proceeds maxDepth tokens ⟨pos, depth, .enter opener callers⟩ := by
  by_cases hfull : maxDepth < depth
  · simp only [Proceeds, step, expected, if_pos hfull]
    exact Or.inr trivial
  · simp only [Proceeds, step, if_neg hfull]
    exact Or.inl ⟨_, rfl, .body pos opener callers (Nat.not_lt.mp hfull)⟩

theorem proceeds_give_condition (pos depth : Nat) (pending : Pending)
    (outer : Callers .expression) (f : Formula) :
    Proceeds maxDepth tokens ⟨pos, depth, .give .condition (.expression pending outer) f⟩ := by
  cases ht : tokens[pos]? with
  | none =>
    simp only [Proceeds, step, ht]
    exact Or.inl ⟨_, rfl, .ended depth pending outer f (by simp [ht])⟩
  | some t =>
    by_cases hkind : t.kind = .connective
    · cases hconnective : Connective.ofSymbol? t.text with
      | none =>
        simp only [Proceeds, step, ht, if_pos hkind, hconnective, expected,
          drop_eq_cons ht]
        exact Or.inr (answered (.connective _ _ _ hkind hconnective))
      | some connective =>
        simp only [Proceeds, step, ht, if_pos hkind, hconnective]
        exact Or.inl ⟨_, rfl,
          .connective depth pending outer f (drop_eq_cons ht) hkind hconnective⟩
    · simp only [Proceeds, step, ht, if_neg hkind]
      exact Or.inl ⟨_, rfl, .ended depth pending outer f (by simpa [ht] using hkind)⟩

/-- The whole expression has been read: it is the answer, or something follows it. -/
theorem proceeds_give_whole (pos depth : Nat) (f : Formula)
    (hend : ∀ t, tokens[pos]? = some t → t.kind ≠ .connective) :
    Proceeds maxDepth tokens ⟨pos, depth, .give .expression .none f⟩ := by
  cases ht : tokens[pos]? with
  | none =>
    simp only [Proceeds, step, ht, expected, drop_eq_nil ht]
    exact Or.inr (answered (.complete f))
  | some t =>
    simp only [Proceeds, step, ht, expected, drop_eq_cons ht]
    exact Or.inr (answered (.trailing f _ (hend t ht)))

/-- The expression in a group has been read, while some group is counted. -/
theorem proceeds_give_group (pos depth opener : Nat) (outer : Callers .condition) (f : Formula)
    (hend : ∀ t, tokens[pos]? = some t → t.kind ≠ .connective) :
    Proceeds maxDepth tokens ⟨pos, depth + 1, .give .expression (.group opener outer) f⟩ := by
  cases ht : tokens[pos]? with
  | none =>
    simp only [Proceeds, step, ht, expected, drop_eq_nil ht]
    exact Or.inr (answered (.unclosed ⟨opener, outer.pending⟩ outer.groups f))
  | some t =>
    by_cases hkind : t.kind = .rightParen
    · simp only [Proceeds, step, ht, if_pos hkind]
      exact Or.inl ⟨_, rfl, .closer depth opener outer f (drop_eq_cons ht) hkind⟩
    · simp only [Proceeds, step, ht, if_neg hkind, expected, drop_eq_cons ht]
      exact Or.inr (answered (.unclosedAt ⟨opener, outer.pending⟩ outer.groups f _ (hend t ht)
        hkind))

/-- While the bookkeeping is right no step breaks. -/
theorem Sound.proceeds (h : Sound maxDepth tokens s) : Proceeds maxDepth tokens s := by
  obtain ⟨pos, depth, control⟩ := s
  match control, h with
  | .read .expression callers, _ => exact Or.inl ⟨_, rfl, .expression pos depth callers⟩
  | .read .condition callers, _ => exact proceeds_condition pos depth callers
  | .enter opener callers, _ => exact proceeds_enter pos depth opener callers
  | .give .condition (.expression pending outer) f, _ =>
    exact proceeds_give_condition pos depth pending outer f
  | .give .expression .none f, h =>
    exact proceeds_give_whole pos depth f fun t ht ↦ h.ended _ f t rfl ht
  | .give .expression (.group opener outer) f, h =>
    obtain rfl : depth = outer.groups.length + 1 := h.depth_eq
    exact proceeds_give_group pos _ opener outer f fun t ht ↦ h.ended _ f t rfl ht

end Descent

end Criteria.Grammar
